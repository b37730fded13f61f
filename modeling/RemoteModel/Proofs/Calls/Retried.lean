import RemoteModel.Proofs.Calls.Failed
import RemoteModel.Proofs.Resilience.Attempts

/-!
Calls that a caller repeats. A circuit that an attempt leaves open ends the attempts, so a caller that
repeats a call sends no more requests than the circuit lets through.
-/

namespace RemoteModel

open Host

/-- A call and the check of the status it was answered with. -/
def Service.ask {σ : Type} [HasJournal σ] (s : Service σ) (call : Call) (st : σ) :
    Except Failure Text × σ :=
  match s.execute call st with
  | (.error f, st) => (.error f, st)
  | (.ok r, st) => s.bodyOf r st

/-- A prediction that can be prepared fails as its call does, and otherwise gives what the output
processor makes of the body, tagged with the status of the answer. -/
theorem Service.invoke_eq_ask {σ : Type} [HasJournal σ] {s : Service σ} {q : Query}
    {parameters : Entries Json} {call : Call} (hparameters : s.parameters q = .ok parameters)
    (hcall : callOf s.connector .predict parameters = .ok call) (st : σ) :
    (∀ f st', s.ask call st = (.error f, st') → s.invoke q st = (.error f, st')) ∧
      ∀ body st', s.ask call st = (.ok body, st') → ∃ status,
        s.invoke q st =
          match s.output body s.connector parameters st' with
          | (.error f, st) => (.error f, st)
          | (.ok given, st) => (.ok (given.tag status st).1, (given.tag status st).2) := by
  unfold invoke ask
  rw [hparameters]
  dsimp only [bind, Except.bind]
  rw [hcall]
  dsimp only [pure, Except.pure]
  cases s.execute call st with
  | mk result st' =>
      cases result with
      | error f =>
          dsimp only
          exact ⟨fun _ _ h => by cases h; rfl, nofun⟩
      | ok r =>
          dsimp only
          cases s.bodyOf r st' with
          | mk result st'' =>
              cases result with
              | error f =>
                  dsimp only
                  exact ⟨fun _ _ h => by cases h; rfl, nofun⟩
              | ok body =>
                  refine ⟨nofun, fun _ _ h => ⟨r.status, ?_⟩⟩
                  cases h
                  rfl

theorem Service.bodyOf_logged {σ : Type} [HasJournal σ] (s : Service σ) (r : Response) (st : σ) :
    Breaker.Logged st (s.bodyOf r st).2 := by
  unfold bodyOf
  split
  next => exact .refl
  next =>
    split
    next => exact .refl
    next => exact .log _ .refl

theorem Breaker.Logged.sleeps_eq {β : Type} {s s' : β × Host} (h : Logged s s') :
    s'.2.journal.sleeps = s.2.journal.sleeps := by
  induction h with
  | refl => rfl
  | log _ _ ih => exact ih

/-- An exchange that ends without an answer: it fails in the transport, or its body breaks off while it is
read. -/
def Exchange.Breaks (streamed : Bool) (x : Exchange) : Prop :=
  match x.reply with
  | .error f => f.isA (.http .request) = true
  | .ok a => streamed = false ∧ a.body.fault ≠ none

theorem Host.exchange_breaks {streamed : Bool} {h : Host}
    (hbreaks : ∀ x ∈ h.exchanges, x.Breaks streamed) (session : Session) (r : Request)
    (connect read : Binary64) : ∃ f h', h.exchange session r streamed connect read = (.error f, h') ∧
      f.isA (.http .request) = true ∧ (∀ x ∈ h'.exchanges, x ∈ h.exchanges) ∧
      h'.sent.length ≤ h.sent.length + 1 := by
  unfold exchange
  split
  next => exact ⟨_, _, rfl, rfl, fun _ => id, Nat.le_succ _⟩
  next =>
    dsimp only
    split
    next hexchanges => exact ⟨_, _, rfl, rfl, fun _ => id, by simp⟩
    next x rest hexchanges =>
      have hbreak := hbreaks x (by simp [hexchanges])
      have hrest : ∀ y ∈ rest, y ∈ h.exchanges := fun y hy => by simp [hexchanges, hy]
      unfold Exchange.Breaks at hbreak
      split
      next f hreply =>
        rw [hreply] at hbreak
        exact ⟨f, _, rfl, hbreak, hrest, by simp [HasJournal.advance, HasJournal.setJournal]⟩
      next a hreply =>
        rw [hreply] at hbreak
        obtain ⟨rfl, hfault⟩ := hbreak
        obtain ⟨fault, hfault⟩ := Option.ne_none_iff_exists'.mp hfault
        rw [hfault]
        exact ⟨fault.inExchange, _, rfl, fault.inExchange_isA, hrest,
          by simp [HasJournal.advance, HasJournal.setJournal]⟩

namespace Executor

theorem attempt_breaks [HostEncoder] (e : Executor) {d : Draft} {a : RequestAuth} {h : Host}
    (hbreaks : ∀ x ∈ h.exchanges, x.Breaks d.streamed) :
    ∃ f a' h', e.attempt d (a, h) = (.error f, a', h') ∧ (counts f = true ∨ f.isLocal = true) ∧
      (∀ x ∈ h'.exchanges, x ∈ h.exchanges) ∧ h'.sent.length ≤ h.sent.length + 1 := by
  have htries := e.attempt_tries d a h
  generalize e.attempt d (a, h) = ending at htries ⊢
  cases htries with
  | unprepared hprepare =>
      exact ⟨_, a, h, rfl, .inr (Request.prepare_local _ _ _ _ _ hprepare), fun _ => id,
        Nat.le_succ _⟩
  | @unsigned r f a' h' _ hsign =>
      have hstill := a.sign_still r h
      have hlocal := a.sign_local r h
      rw [hsign] at hstill hlocal
      refine ⟨f, a', h', rfl, .inr (hlocal f rfl), fun x hx => ?_, ?_⟩
      · rwa [← hstill.exchanges]
      · rw [hstill.sent]
        exact Nat.le_succ _
  | @sent r r' a' h' _ hsign =>
      have hstill := a.sign_still r h
      rw [hsign] at hstill
      have hbreaks' : ∀ x ∈ h'.exchanges, x.Breaks d.streamed := by
        rwa [hstill.exchanges]
      obtain ⟨f, h'', hexchange, hkind, hrest, hsent⟩ := exchange_breaks hbreaks'
        e.session r' e.settings.connectTimeout e.settings.readTimeout
      rw [transmit_of_exchange hexchange hkind]
      refine ⟨_, a', _, rfl, .inl rfl, fun x hx => ?_, ?_⟩
      · rw [← hstill.exchanges]
        exact hrest x hx
      · rw [← hstill.sent]
        exact hsent

theorem call_leaves_open [HostEncoder] {e e' : Executor} {c : Call} {d : Draft} {h h' : Host}
    {result : Except Failure Response} (hdraft : e.draft c = .ok d)
    (hcall : e.call c h = (result, e', h')) (hopen : e'.breaker.circuit ≠ .closed) :
    result = .error (.circuitOpen (.own .serviceUnavailable) e.breaker.name) := by
  cases henter : e.breaker.enter h.journal.now with
  | none =>
      rw [call_refused hdraft henter] at hcall
      cases hcall
      rfl
  | some entered =>
      obtain ⟨b, records⟩ := entered
      obtain ⟨hend, _, hcall'⟩ := call_of_enter hdraft henter
        (Prod.mk.eta (p := e.attempt d (e.auth, HasJournal.log records h))).symm
      rw [hcall'] at hcall
      cases hcall
      have hfailed : Breaker.Ending.failed counts ⟨(e.attempt d (e.auth, HasJournal.log records h)).1,
          (e.attempt d (e.auth, HasJournal.log records h)).2.2.journal.now⟩ = true := by
        by_contra hpassed
        have hpass := (Breaker.after_of_passed (g := e.guard) (Bool.not_eq_true _ ▸ hpassed) b).1
        rw [hpass, Breaker.pass_of_enter henter] at hopen
        exact hopen rfl
      unfold Breaker.seen
      rw [if_pos ⟨hfailed, hopen⟩]
      rfl

theorem call_keeps [HostEncoder] (e : Executor) (c : Call) (h : Host) :
    (e.call c h).2.1.draft c = e.draft c ∧ (e.call c h).2.1.breaker.name = e.breaker.name ∧
      (e.call c h).2.1.breaker.threshold = e.breaker.threshold := by
  unfold call
  split
  next => exact ⟨rfl, rfl, rfl⟩
  next d _ =>
    obtain ⟨hname, hthreshold, _⟩ := e.breaker.run_keeps (.own .serviceUnavailable) e.breaker.name
      counts (fun _ => []) (e.attempt d) (e.auth, h)
    split
    next hrun =>
      rw [hrun] at hname hthreshold
      exact ⟨rfl, hname, hthreshold⟩

theorem call_breaks [HostEncoder] {e : Executor} {c : Call} {d : Draft} {h : Host}
    (hdraft : e.draft c = .ok d) (hbreaks : ∀ x ∈ h.exchanges, x.Breaks d.streamed) :
    ∃ f e' h', e.call c h = (.error f, e', h') ∧ (∀ x ∈ h'.exchanges, x.Breaks d.streamed) ∧
      h'.sent.length ≤ h.sent.length + 1 ∧
      (Classifier.invocation.isRetriable f = true →
        e'.breaker.failures = e.breaker.failures + 1 ∧
          (e.breaker.failures : Int) + 1 < e.breaker.threshold) := by
  cases henter : e.breaker.enter h.journal.now with
  | none => exact ⟨_, e, h, call_refused hdraft henter, hbreaks, Nat.le_succ _, nofun⟩
  | some entered =>
      obtain ⟨b, records⟩ := entered
      obtain ⟨f, a, h', hattempt, hkind, hrest, hsent⟩ :=
        e.attempt_breaks (a := e.auth) (h := HasJournal.log records h) hbreaks
      have hkept {hend : Host} (hstill : Still h' hend) :
          (∀ x ∈ hend.exchanges, x.Breaks d.streamed) ∧
            hend.sent.length ≤ h.sent.length + 1 := by
        rw [hstill.exchanges, hstill.sent]
        exact ⟨fun x hx => hbreaks x (hrest x hx), hsent⟩
      rcases hkind with hcounts | hlocal
      · obtain ⟨b', hend, hcall, hstill, hmore, hcircuit⟩ :=
          call_counted hdraft henter hattempt hcounts
        obtain ⟨hbreaks', hsent'⟩ := hkept hstill
        refine ⟨_, _, hend, hcall, hbreaks', hsent', fun hretriable => ?_⟩
        by_cases hclosed : b'.circuit = .closed
        · exact ⟨hmore, (hcircuit.mp hclosed).2⟩
        · rw [if_neg hclosed] at hretriable
          cases hretriable
      · obtain ⟨hend, hlogged, hcall⟩ := call_of_enter hdraft henter hattempt
        obtain ⟨hbreaks', hsent'⟩ := hkept hlogged.still
        have hpassed : Breaker.Ending.failed e.guard.counts
            (⟨.error f, h'.journal.now⟩ : Breaker.Ending Response) = false :=
          Failure.counts_of_isLocal hlocal
        rw [(Breaker.after_of_passed hpassed b).2] at hcall
        refine ⟨_, _, hend, hcall, hbreaks', hsent', fun hretriable => ?_⟩
        rw [Failure.not_retriable_of_isLocal hlocal] at hretriable
        cases hretriable

theorem ask_of_error [HostEncoder] (owner : Connector) {c : Call} {e e' : Executor} {h h' : Host}
    {f : Failure} (hcall : e.call c h = (.error f, e', h')) :
    (Service.standard owner).ask c (e, h) = (.error f, e', h') := by
  unfold Service.ask
  rw [show (Service.standard owner).execute c (e, h) = e.call c h from rfl, hcall]

theorem ask_executor [HostEncoder] (owner : Connector) (c : Call) (e : Executor) (h : Host) :
    ((Service.standard owner).ask c (e, h)).2.1 = (e.call c h).2.1 := by
  unfold Service.ask
  rw [show (Service.standard owner).execute c (e, h) = e.call c h from rfl]
  obtain ⟨result, e', h'⟩ := e.call c h
  cases result with
  | error => rfl
  | ok r => exact ((Service.standard owner).bodyOf_logged r (e', h')).fst

theorem ask_leaves_open [HostEncoder] {owner : Connector} {e : Executor} {c : Call} {d : Draft} {h : Host}
    (hdraft : e.draft c = .ok d)
    (hopen : ((Service.standard owner).ask c (e, h)).2.1.breaker.circuit ≠ .closed) :
    ((Service.standard owner).ask c (e, h)).1 =
      .error (.circuitOpen (.own .serviceUnavailable) e.breaker.name) := by
  rw [ask_executor] at hopen
  have hcall : e.call c h = (_, (e.call c h).2.1, (e.call c h).2.2) :=
    Prod.ext (call_leaves_open hdraft rfl hopen) rfl
  rw [ask_of_error owner hcall]

def Drafted (c : Call) (name : Text) (draft : Except Failure Draft) (s : Executor × Host) : Prop :=
  s.1.draft c = draft ∧ s.1.breaker.name = name

theorem unlogged_drafted (c : Call) (name : Text) (draft : Except Failure Draft) :
    Unlogged (Drafted c name draft) :=
  ⟨fun _ _ h => h, fun _ _ h => h⟩

theorem drafted_ask [HostEncoder] {owner : Connector} {c : Call} {name : Text} {draft : Except Failure Draft}
    {s : Executor × Host} (h : Drafted c name draft s) :
    Drafted c name draft ((Service.standard owner).ask c s).2 := by
  obtain ⟨e, host⟩ := s
  obtain ⟨hdraft, hname, _⟩ := e.call_keeps c host
  unfold Drafted at h ⊢
  rw [ask_executor, hdraft, hname]
  exact h

variable {p : RetryPolicy} {owner : Connector} {c : Call} {number more : Nat}
  {s : Executor × Host} {attempts : List (Retry.Attempt (Executor × Host) Text)}
  {ending : Except Failure Text × Executor × Host}

theorem retriable_of_orDefault {f : Failure}
    (h : (Classifier.orDefault (some .invocation)).isRetriable f = true) :
    Classifier.invocation.isRetriable f = true := by
  unfold Classifier.orDefault at h
  exact (Bool.and_eq_true _ _ ▸ h).2

theorem settled_of_invocation {f : Failure} (h : Classifier.invocation.isRetriable f = false) :
    (Classifier.orDefault (some .invocation)).isRetriable f = false :=
  Bool.eq_false_iff.mpr fun hretriable =>
    Bool.eq_false_iff.mp h (retriable_of_orDefault hretriable)

/-- Attempts at a call whose exchanges all fail send no more requests than there may be attempts, and no
more than there are failures left until the circuit opens. -/
theorem requests_le [HostEncoder] {d : Draft}
    (h : Retry.Pursued p (.orDefault (some .invocation)) ((Service.standard owner).ask c) number more
      s attempts ending) (hdraft : s.1.draft c = .ok d)
    (hbreaks : ∀ x ∈ s.2.exchanges, x.Breaks d.streamed) :
    (ending.2.2.sent.length : Int) ≤ s.2.sent.length +
      min ((more : Int) + 1) (max (s.1.breaker.threshold - s.1.breaker.failures) 1) := by
  -- only an attempt that leaves the circuit closed is followed by another, with one failure more
  induction h with
  | @last number more s s' _ hlogged =>
      obtain ⟨e, h⟩ := s
      obtain ⟨f, e', h', hcall, _, hsent, _⟩ := call_breaks hdraft hbreaks
      rw [ask_of_error owner hcall] at hlogged
      have hsame : s'.2.sent = h'.sent := hlogged.still.sent
      dsimp only at hsent ⊢
      rw [hsame]
      omega
  | @again number more s s' f rest ending hfails hretriable hlogged _ ih =>
      obtain ⟨e, h⟩ := s
      obtain ⟨f', e', h', hcall, hbreaks', hsent, hfailures⟩ := call_breaks hdraft hbreaks
      obtain ⟨hdraft', _, hthreshold⟩ := e.call_keeps c h
      rw [ask_of_error owner hcall] at hfails hlogged
      rw [hcall] at hdraft' hthreshold
      cases hfails
      obtain ⟨hmore, hfew⟩ := hfailures (retriable_of_orDefault hretriable)
      obtain ⟨e'', h''⟩ := s'
      obtain rfl : e'' = e' := hlogged.fst
      have hstill : Still h' h'' := hlogged.still
      have hrest := ih (hdraft'.trans hdraft) (by
        change ∀ x ∈ h''.exchanges, _
        rwa [hstill.exchanges])
      change _ ≤ (h''.sent.length : Int) + min ((more : Int) + 1)
        (max (e''.breaker.threshold - (e''.breaker.failures : Int)) 1) at hrest
      rw [hstill.sent, hthreshold, hmore] at hrest
      dsimp only at hmore hfew hsent hrest ⊢
      omega

theorem open_ends [HostEncoder] {name : Text} {d : Draft}
    (h : Retry.Pursued p (.orDefault (some .invocation)) ((Service.standard owner).ask c) number more
      s attempts ending) (hdrafted : Drafted c name (.ok d) s) {i : Nat}
    {a : Retry.Attempt (Executor × Host) Text} (hat : attempts[i]? = some a)
    (hopen : a.state.1.breaker.circuit ≠ .closed) :
    i + 1 = attempts.length ∧
      ending.1 = .error (.circuitOpen (.own .serviceUnavailable) name) := by
  obtain ⟨_, hattempts⟩ := h.invariant (unlogged_drafted c name (.ok d))
    (fun _ => drafted_ask) hdrafted
  obtain ⟨⟨e, host⟩, ⟨hdraft, rfl⟩, rfl⟩ := hattempts a (List.mem_of_getElem? hat)
  have hresult := ask_leaves_open hdraft hopen
  obtain ⟨hlast, hend⟩ := h.settled hat (fun f hf => by
    cases hresult.symm.trans hf
    rfl)
  exact ⟨hlast, hend.trans hresult⟩

theorem refused_at_once [HostEncoder] {d : Draft}
    (h : Retry.Pursued p (.orDefault (some .invocation)) ((Service.standard owner).ask c) number more
      s attempts ending) (hdraft : s.1.draft c = .ok d)
    (henter : s.1.breaker.enter s.2.journal.now = none) :
    ending.1 = .error (.circuitOpen (.own .serviceUnavailable) s.1.breaker.name) ∧
      ending.2.2.sent = s.2.sent ∧ ending.2.2.journal.sleeps = s.2.journal.sleeps := by
  obtain ⟨e, host⟩ := s
  have hask := ask_of_error owner (call_refused hdraft henter)
  obtain ⟨_, hresult, hlogged⟩ := h.single (fun f hf => by
    rw [hask] at hf
    cases hf
    rfl)
  rw [hask] at hresult hlogged
  exact ⟨hresult, hlogged.still.sent, hlogged.sleeps_eq⟩

theorem undrafted_attempts [HostEncoder] {e : Executor} {f : Failure} {sent : List Sending}
    (h : Retry.Pursued p (.orDefault (some .invocation)) ((Service.standard owner).ask c) number more
      s attempts ending) (hdraft : e.draft c = .error f) (hs : s.1 = e ∧ s.2.sent = sent) :
    ending.1 = .error f ∧ ending.2.1 = e ∧ ending.2.2.sent = sent := by
  have hask (host : Host) := ask_of_error owner (call_undrafted hdraft host)
  let same (s : Executor × Host) : Prop := s.1 = e ∧ s.2.sent = sent
  have hjournal : Unlogged same := ⟨fun _ _ h => h, fun _ _ h => h⟩
  obtain ⟨hend, hattempts⟩ := h.invariant hjournal
    (fun ⟨e', host⟩ ⟨he, hsent⟩ => by
      obtain rfl : e' = e := he
      rw [hask]
      exact ⟨rfl, hsent⟩) hs
  obtain ⟨a, ha, hresult⟩ := h.result
  obtain ⟨⟨e', host⟩, ⟨he, _⟩, rfl⟩ := hattempts a ha
  obtain rfl : e' = e := he
  refine ⟨hresult.trans ?_, hend⟩
  unfold Retry.attemptOf
  rw [hask]

/-- Repeating a call. One that passes its checks sends no more requests than there may be attempts or
failures until the circuit opens, if all exchanges fail; an attempt that leaves the circuit open is the
last, and its caller is told that the circuit is open; while the circuit is open nothing is sent and
nobody waits. One that does not pass its checks sends nothing, leaves the breaker alone and ends in what
the check found. -/
theorem retried_call [HostEncoder] (p : RetryPolicy) (owner : Connector) (e : Executor) (c : Call)
    (h : Host) : ∃ result attempts e' h',
      Retry.call p (some .invocation) (Retry.watched ((Service.standard owner).ask c)) ([], e, h) =
        (result, attempts, e', h') ∧
      Retry.call p (some .invocation) ((Service.standard owner).ask c) (e, h) = (result, e', h') ∧
      (∀ d, e.draft c = .ok d →
        ((∀ x ∈ h.exchanges, x.Breaks d.streamed) →
          (h'.sent.length : Int) ≤ h.sent.length +
            min (max p.attempts 1) (max (e.breaker.threshold - e.breaker.failures) 1)) ∧
        (∀ i a, attempts[i]? = some a → a.state.1.breaker.circuit ≠ .closed →
          i + 1 = attempts.length ∧
            result = .error (.circuitOpen (.own .serviceUnavailable) e.breaker.name)) ∧
        (∀ since, e.breaker.circuit = .opened since →
          h.journal.now < since + Journal.microseconds e.breaker.timeout →
          result = .error (.circuitOpen (.own .serviceUnavailable) e.breaker.name) ∧
            h'.sent = h.sent ∧ h'.journal.sleeps = h.journal.sleeps)) ∧
      (∀ f, e.draft c = .error f →
        result = .error f ∧ h'.sent = h.sent ∧ e'.breaker = e.breaker ∧
          (Classifier.invocation.isRetriable f = false →
            attempts.length = 1 ∧ h'.journal.sleeps = h.journal.sleeps)) := by
  obtain ⟨attempts, result, ⟨e', h'⟩, hwatched, hrun, hpursued⟩ :=
    Retry.call_pursued p Classifier.isClean_invocation ((Service.standard owner).ask c) (e, h)
  refine ⟨result, attempts, e', h', hwatched, hrun, fun d hdraft => ⟨fun hbreaks => ?_,
    fun i a hat hopen => ?_, fun since hopened hwaits => ?_⟩, fun f hdraft => ?_⟩
  · have hfew := requests_le hpursued hdraft hbreaks
    dsimp only at hfew
    omega
  · exact open_ends hpursued ⟨hdraft, rfl⟩ hat hopen
  · refine refused_at_once hpursued hdraft ?_
    unfold Breaker.enter
    rw [hopened]
    exact if_pos hwaits
  · obtain ⟨hresult, hsame, hsent⟩ := undrafted_attempts hpursued hdraft ⟨rfl, rfl⟩
    refine ⟨hresult, hsent, congrArg Executor.breaker hsame, fun hfinal => ?_⟩
    have hask := ask_of_error owner (call_undrafted hdraft h)
    obtain ⟨hsingle, _, hlogged⟩ := hpursued.single (fun f' hf => by
      rw [hask] at hf
      cases hf
      exact settled_of_invocation hfinal)
    rw [hask] at hlogged
    exact ⟨hsingle, hlogged.sleeps_eq⟩

def vaultFailure : Failure := .reported (.own .transport) "vault"

/-- An executor whose decryptor fails, which only matters to calls with headers. -/
def vaultExecutor : Executor where
  kind := .http
  connector :=
    { trialConnector with
      credential := [("k", some "v")]
      actions := trialConnector.actions ++
        [⟨.download, "GET", "http://x/", some [("a", some "b")], .null⟩] }
  settings := trialSettings
  decrypt := some fun _ => .error vaultFailure
  breaker := .create (breakerName trialConnector) 1 30
  auth := .unsigned

def opened : Executor × Host := (vaultExecutor.call (trialCall "http://x/") refusingHost).2

def putCall : Call := ⟨"http://x/", some "PUT", none, .predict, []⟩

def fetchCall : Call := ⟨"http://x/", some "GET", none, .download, []⟩

theorem reached_opened : Reached opened.1 opened.2 := by
  have hcreated : create .http vaultExecutor.connector trialSettings vaultExecutor.decrypt
      refusingHost = (.ok vaultExecutor, refusingHost) := rfl
  unfold opened
  exact (Reached.created hcreated).called (trialCall "http://x/")

/-- The checks of a call come before its breaker: the caller of one that does not pass them is not told
that the circuit is open, and an error of the decryptor that is worth another attempt is waited for. -/
theorem unchecked_call_not_refused :
    (¬∀ (p : RetryPolicy) (owner : Connector) (e e' : Executor) (c : Call) (h h' : Host)
        (result : Except Failure Text), Reached e h →
      Retry.call p (some .invocation) ((Service.standard owner).ask c) (e, h) = (result, e', h') →
      e'.breaker.circuit ≠ .closed →
      ∃ name, result = .error (.circuitOpen (.own .serviceUnavailable) name)) ∧
    ¬∀ (p : RetryPolicy) (owner : Connector) (e e' : Executor) (c : Call) (h h' : Host)
        (result : Except Failure Text) (since : Int), Reached e h →
      e.breaker.circuit = .opened since →
      h.journal.now < since + Journal.microseconds e.breaker.timeout →
      Retry.call p (some .invocation) ((Service.standard owner).ask c) (e, h) = (result, e', h') →
      h'.journal.sleeps = h.journal.sleeps := by
  constructor
  · intro hall
    have hdraft : opened.1.draft putCall = .error (.methodUnsupported "PUT") := by decide +kernel
    obtain ⟨attempts, result, ⟨e', h'⟩, _, hrun, hpursued⟩ := Retry.call_pursued .standard
      Classifier.isClean_invocation ((Service.standard trialConnector).ask putCall) opened
    obtain ⟨hresult, hsame, _⟩ := undrafted_attempts hpursued hdraft ⟨rfl, rfl⟩
    obtain rfl : e' = opened.1 := hsame
    have hopened : opened.1.breaker.circuit ≠ .closed := by decide +kernel
    obtain ⟨name, hname⟩ := hall _ _ _ _ _ _ _ _ reached_opened hrun hopened
    cases hname.symm.trans hresult
  · intro hall
    have hopened : opened.1.breaker.circuit = .opened opened.2.journal.now := by decide +kernel
    have hwaits : opened.2.journal.now <
        opened.2.journal.now + Journal.microseconds opened.1.breaker.timeout := by decide +kernel
    have hsleeps : (Retry.call .standard (some .invocation)
        ((Service.standard trialConnector).ask fetchCall) opened).2.2.journal.sleeps ≠
          opened.2.journal.sleeps := by decide +kernel
    cases hrun : Retry.call .standard (some .invocation)
        ((Service.standard trialConnector).ask fetchCall) opened with
    | mk result s =>
        rw [hrun] at hsleeps
        exact hsleeps (hall _ _ _ s.1 _ _ s.2 _ _ reached_opened hopened hwaits hrun)

end Executor

end RemoteModel
