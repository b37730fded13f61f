import RemoteModel.Proofs.Calls.Failed

/-!
Calls one by one. A call sends one request at most: one that is answered has sent exactly one and gives
back the answer as it came, and only an error of the transport may stand for a request that went out.
What is wrong with the method or the payload is found before anything else is looked at.
-/

namespace RemoteModel

open Host

/-- An exchange that is answered or fails as exchanges do. -/
def Exchange.Ordinary (x : Exchange) : Prop := ∀ f, x.reply = .error f → f.isA (.http .request) = true

/-- A response is the next answer of the network: its status, its headers and its whole body. -/
structure Response.Returns (r : Response) (h h' : Host) (x : Exchange) (a : Answer) : Prop where
  next : h.exchanges = x :: h'.exchanges
  reply : x.reply = .ok a
  status : r.status = a.status
  headers : r.headers = a.headers
  unread : r.body.isClosed = false
  body : OnWire.wire r.body = a.body

namespace Host

theorem exchange_rest (session : Session) (r : Request) (streamed : Bool) (connect read : Binary64)
    (h : Host) : (h.exchange session r streamed connect read).2.exchanges <:+ h.exchanges := by
  unfold exchange
  split
  next => exact List.suffix_rfl
  next =>
    dsimp only
    split
    next => exact List.suffix_rfl
    next x rest hexchanges =>
      have hrest : rest <:+ h.exchanges := hexchanges ▸ List.suffix_cons x rest
      split
      next => exact hrest
      next => split <;> exact hrest

theorem exchange_error {session : Session} {r : Request} {streamed : Bool}
    {connect read : Binary64} {h h' : Host} {f : Failure} (hordinary : ∀ x ∈ h.exchanges, x.Ordinary)
    (hrun : h.exchange session r streamed connect read = (.error f, h')) :
    f.isA (.http .request) = true := by
  unfold exchange at hrun
  split at hrun
  next =>
    cases hrun
    rfl
  next =>
    dsimp only at hrun
    split at hrun
    next =>
      cases hrun
      rfl
    next x rest hexchanges =>
      split at hrun
      next hreply =>
        cases hrun
        exact hordinary x (by simp [hexchanges]) f hreply
      next =>
        split at hrun
        next fault _ =>
          cases hrun
          exact fault.inExchange_isA
        next => cases hrun

/-- What becomes of a request: none is sent, one is sent and fails, or one is sent and answered. -/
inductive Serves (h : Host) : Except Failure Response → Host → Prop
  | unsent {f : Failure} {h' : Host} : h'.sent = h.sent → h'.exchanges = h.exchanges →
      Serves h (.error f) h'
  | failed {f : Failure} {h' : Host} (sending : Sending) : h'.sent = h.sent ++ [sending] →
      h'.exchanges <:+ h.exchanges → f.isA (.own .transport) = true → Serves h (.error f) h'
  | answered {r : Response} {h' : Host} {x : Exchange} {a : Answer} (sending : Sending) :
      h'.sent = h.sent ++ [sending] → r.Returns h h' x a → Serves h (.ok r) h'

namespace Serves

variable {h h₀ h' h'' : Host} {result : Except Failure Response}

theorem exchanges_suffix (hserves : Serves h result h') : h'.exchanges <:+ h.exchanges := by
  cases hserves with
  | unsent _ hsame => exact hsame ▸ List.suffix_rfl
  | failed _ _ hrest => exact hrest
  | answered _ _ hreturns => exact hreturns.next ▸ List.suffix_cons _ _

theorem after_still (hstill : Still h₀ h) (hserves : Serves h result h') : Serves h₀ result h' := by
  cases hserves with
  | unsent hsent hsame => exact .unsent (hsent.trans hstill.sent) (hsame.trans hstill.exchanges)
  | failed sending hsent hrest hkind =>
      exact .failed sending (hstill.sent ▸ hsent) (hstill.exchanges ▸ hrest) hkind
  | answered sending hsent hreturns =>
      exact .answered sending (hstill.sent ▸ hsent)
        { hreturns with next := hstill.exchanges ▸ hreturns.next }

theorem before_still (hserves : Serves h result h') (hstill : Still h' h'') :
    Serves h result h'' := by
  cases hserves with
  | unsent hsent hsame => exact .unsent (hstill.sent.trans hsent) (hstill.exchanges.trans hsame)
  | failed sending hsent hrest hkind =>
      exact .failed sending (hstill.sent.trans hsent) (hstill.exchanges.symm ▸ hrest) hkind
  | answered sending hsent hreturns =>
      exact .answered sending (hstill.sent.trans hsent)
        { hreturns with next := hstill.exchanges.symm ▸ hreturns.next }

/-- An error of the transport may stand for any other. -/
theorem reword {f g : Failure} (hserves : Serves h (.error f) h')
    (hkind : g.isA (.own .transport) = true) : Serves h (.error g) h' := by
  cases hserves with
  | unsent hsent hsame => exact .unsent hsent hsame
  | failed sending hsent hrest _ => exact .failed sending hsent hrest hkind

end Serves

end Host

namespace Executor

theorem returns_responseOf (e : Executor) {d : Draft} {h h' : Host} {x : Exchange} {a : Answer}
    (hnext : h.exchanges = x :: h'.exchanges) (hreply : x.reply = .ok a)
    (hwhole : d.streamed = false → a.body.fault = none) :
    (e.responseOf d a).Returns h h' x a where
  next := hnext
  reply := hreply
  status := rfl
  headers := rfl
  unread := by
    unfold responseOf
    cases d.streamed <;> rfl
  body := wire_responseOf e hwhole

theorem transmit_of_answer {e : Executor} {d : Draft} {r : Request} {h h' : Host} {a : Answer}
    (hexchange : h.exchange e.session r d.streamed e.settings.connectTimeout e.settings.readTimeout =
      (.ok a, h')) :
    e.transmit d r h = (.ok (e.responseOf d a),
      HasJournal.log [e.successRecord d a.status (h'.journal.now - h.journal.now)] h') := by
  unfold transmit
  dsimp only
  rw [hexchange]

theorem transmit_serves (e : Executor) (d : Draft) (r : Request) {h : Host}
    (hordinary : ∀ x ∈ h.exchanges, x.Ordinary) :
    Serves h (e.transmit d r h).1 (e.transmit d r h).2 := by
  cases hserved : Target.isServed r.url with
  | false =>
      rw [transmit_of_exchange (exchange_unserved _ _ _ _ _ hserved) rfl]
      exact .unsent rfl rfl
  | true =>
      have hrest := h.exchange_rest e.session r d.streamed e.settings.connectTimeout
        e.settings.readTimeout
      have hsent := (exchange_sent e.session d.streamed e.settings.connectTimeout
        e.settings.readTimeout h hserved).sent
      cases hrun : h.exchange e.session r d.streamed e.settings.connectTimeout
        e.settings.readTimeout with
      | mk result h' =>
          rw [hrun] at hrest hsent
          cases result with
          | error f =>
              rw [transmit_of_exchange hrun (exchange_error hordinary hrun)]
              exact .failed _ hsent hrest rfl
          | ok a =>
              obtain ⟨⟨x, hnext, hreply⟩, hwhole⟩ := exchange_eq_ok hrun
              rw [transmit_of_answer hrun]
              exact .answered _ hsent (e.returns_responseOf hnext hreply hwhole)

theorem attempt_serves [HostEncoder] (e : Executor) (d : Draft) (a : RequestAuth) {h : Host}
    (hordinary : ∀ x ∈ h.exchanges, x.Ordinary) :
    Serves h (e.attempt d (a, h)).1 (e.attempt d (a, h)).2.2 := by
  have htries := e.attempt_tries d a h
  generalize e.attempt d (a, h) = ending at htries ⊢
  cases htries with
  | unprepared => exact .unsent rfl rfl
  | @unsigned r f a' h' _ hsign =>
      have hstill := a.sign_still r h
      rw [hsign] at hstill
      exact .unsent hstill.sent hstill.exchanges
  | @sent r r' a' h' _ hsign =>
      have hstill := a.sign_still r h
      rw [hsign] at hstill
      exact .after_still hstill (e.transmit_serves d r' (hstill.exchanges ▸ hordinary))

/-- The breaker leaves an answer and an error that does not count as they are, and what it puts in the
place of one that counts is an error of the transport as well. -/
theorem seen_serves (e : Executor) {b : Breaker} {h h' : Host} {result : Except Failure Response}
    {time : Int} (hserves : Serves h result h') :
    Serves h (Breaker.seen e.guard b ⟨result, time⟩) h' := by
  unfold Breaker.seen
  split
  next hfailed =>
    obtain ⟨f, hresult, _⟩ := Breaker.result_of_failed hfailed.1
    obtain rfl : result = .error f := hresult
    exact hserves.reword rfl
  next => exact hserves

theorem call_serves [HostEncoder] (e : Executor) (c : Call) {h : Host}
    (hordinary : ∀ x ∈ h.exchanges, x.Ordinary) :
    Serves h (e.call c h).1 (e.call c h).2.2 := by
  cases hdraft : e.draft c with
  | error f =>
      rw [call_undrafted hdraft]
      exact .unsent rfl rfl
  | ok d =>
      cases henter : e.breaker.enter h.journal.now with
      | none =>
          rw [call_refused hdraft henter]
          exact .unsent rfl rfl
      | some entered =>
          obtain ⟨b, records⟩ := entered
          have hattempt := e.attempt_serves d e.auth (h := HasJournal.log records h) hordinary
          cases hrun : e.attempt d (e.auth, HasJournal.log records h) with
          | mk result s =>
              obtain ⟨a, h'⟩ := s
              rw [hrun] at hattempt
              obtain ⟨hend, hlogged, hcall⟩ := call_of_enter hdraft henter hrun
              rw [hcall]
              exact .before_still (.after_still (.log records h) (e.seen_serves hattempt))
                hlogged.still

/-- What the checks of the method and the payload find in a call. -/
def checkOf (c : Call) : Except Failure (Option Bytes) := do
  let method ← methodOf c.method
  bodyOf method c.payload

theorem draft_of_check {e : Executor} {c : Call} {f : Failure} (hcheck : checkOf c = .error f) :
    e.draft c = .error f := by
  unfold checkOf at hcheck
  unfold draft
  cases hmethod : methodOf c.method with
  | error g =>
      rw [hmethod] at hcheck
      cases hcheck
      rfl
  | ok method =>
      rw [hmethod] at hcheck
      have hbody : bodyOf method c.payload = .error f := hcheck
      change (bodyOf method c.payload >>= _) = _
      rw [hbody]
      rfl

/-- What is done with an executor: a call, or a while of waiting. -/
inductive Deed where
  | call (c : Call)
  | wait (seconds : Rat)

def perform [HostEncoder] (s : Executor × Host) : Deed → Executor × Host
  | .call c => (s.1.call c s.2).2
  | .wait seconds => (s.1, HasJournal.advance seconds s.2)

theorem perform_ordinary [HostEncoder] {s : Executor × Host} (hordinary : ∀ x ∈ s.2.exchanges, x.Ordinary)
    (deed : Deed) : ∀ x ∈ (perform s deed).2.exchanges, x.Ordinary := by
  cases deed with
  | call c =>
      have hrest := (s.1.call_serves c hordinary).exchanges_suffix
      exact fun x hx => hordinary x (hrest.subset hx)
  | wait => exact hordinary

theorem deeds_ordinary [HostEncoder] {s : Executor × Host} (hordinary : ∀ x ∈ s.2.exchanges, x.Ordinary)
    (deeds : List Deed) : ∀ x ∈ (deeds.foldl perform s).2.exchanges, x.Ordinary := by
  induction deeds generalizing s with
  | nil => exact hordinary
  | cons deed deeds ih => exact ih (perform_ordinary hordinary deed)

/-- Whatever was done before, a call sends one request at most. If it is answered it has sent exactly one
and returns the answer of it, whatever its status; if it ends in an error that is none of the transport
it has sent none. A method or a payload that will not do ends the call at once: nothing is sent, built or
counted, whatever the decryptor, the signer and the breaker are. -/
theorem call_single [HostEncoder] (e : Executor) {h : Host} (hordinary : ∀ x ∈ h.exchanges, x.Ordinary)
    (deeds : List Deed) (c : Call) {e₁ e₂ : Executor} {h₁ h₂ : Host}
    {result : Except Failure Response} (hdeeds : deeds.foldl perform (e, h) = (e₁, h₁))
    (hcall : e₁.call c h₁ = (result, e₂, h₂)) :
    (∃ sendings, h₂.sent = h₁.sent ++ sendings ∧ sendings.length ≤ 1 ∧
      (∀ r, result = .ok r → sendings.length = 1 ∧ ∃ x a, r.Returns h₁ h₂ x a) ∧
      ∀ f, result = .error f → f.isA (.own .transport) = false → sendings = []) ∧
    ∀ f, checkOf c = .error f → ∀ decrypt auth breaker,
      { e₁ with decrypt, auth, breaker }.call c h₁ =
        (.error f, { e₁ with decrypt, auth, breaker }, h₁) := by
  refine ⟨?_, fun f hcheck decrypt auth breaker => call_undrafted (draft_of_check hcheck) h₁⟩
  have hleft := deeds_ordinary (s := (e, h)) hordinary deeds
  rw [hdeeds] at hleft
  have hserves := e₁.call_serves c hleft
  rw [hcall] at hserves
  cases hserves with
  | unsent hsent =>
      exact ⟨[], by rw [hsent, List.append_nil], Nat.zero_le 1, nofun, fun _ _ _ => rfl⟩
  | failed sending hsent _ hkind =>
      refine ⟨[sending], hsent, Nat.le_refl 1, nofun, fun g hg hother => ?_⟩
      cases hg
      rw [hkind] at hother
      cases hother
  | answered sending hsent hreturns =>
      refine ⟨[sending], hsent, Nat.le_refl 1, fun r hr => ?_, nofun⟩
      cases hr
      exact ⟨rfl, _, _, hreturns⟩

def plainAnswer (status : Int) (body : Bytes) : Exchange := ⟨0, .ok ⟨status, .null, [], ⟨body, none⟩⟩⟩

theorem plainAnswer_ordinary (status : Int) (body : Bytes) : (plainAnswer status body).Ordinary :=
  nofun

def recoveringHost : Host :=
  { Host.start 0 with exchanges := [⟨0, .error refused⟩, plainAnswer 500 [0x6e, 0x6f]] }

def recovery : List Deed := [.call (trialCall "http://x/"), .wait 30]

def recovered : Executor × Host := recovery.foldl perform (trialExecutor, recoveringHost)

/-- After a failure that opened the circuit and a wait, a call sends one request and returns the answer
with its status 500. -/
theorem recovered_call_single :
    (∀ x ∈ recoveringHost.exchanges, x.Ordinary) ∧
      ∃ sendings r, (recovered.1.call (trialCall "http://x/") recovered.2).1 = .ok r ∧
        r.status = 500 ∧ sendings.length = 1 ∧
        (recovered.1.call (trialCall "http://x/") recovered.2).2.2.sent =
          recovered.2.sent ++ sendings := by
  have hordinary : ∀ x ∈ recoveringHost.exchanges, x.Ordinary := by
    refine List.forall_mem_cons.mpr ⟨fun f hf => ?_,
      List.forall_mem_singleton.mpr (plainAnswer_ordinary _ _)⟩
    cases hf
    rfl
  have hstatus : (recovered.1.call (trialCall "http://x/") recovered.2).1.map Response.status =
      .ok 500 := by decide +kernel
  cases hresult : (recovered.1.call (trialCall "http://x/") recovered.2).1 with
  | error =>
      rw [hresult] at hstatus
      cases hstatus
  | ok r =>
      rw [hresult] at hstatus
      have hdeeds : recovery.foldl perform (trialExecutor, recoveringHost) =
        (recovered.1, recovered.2) := rfl
      obtain ⟨sendings, hsent, _, hanswered, _⟩ := (call_single trialExecutor hordinary recovery
        (trialCall "http://x/") hdeeds rfl).1
      exact ⟨hordinary, sendings, r, rfl, Except.ok.inj hstatus, (hanswered r hresult).1, hsent⟩

end Executor

end RemoteModel
