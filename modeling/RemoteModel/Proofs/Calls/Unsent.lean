import RemoteModel.Proofs.Calls.Executor
import RemoteModel.Proofs.Calls.Local
import RemoteModel.Proofs.Resilience.Breaker

/-!
Calls that fail before anything is sent. To the breaker an error that does not count is as good as an
answer: a call that cannot be prepared or signed closes an open circuit and forgets the failures before.
-/

namespace RemoteModel

theorem Breaker.Logged.still {β : Type} {s s' : β × Host} (h : Logged s s') :
    Host.Still s.2 s'.2 := by
  induction h with
  | refl => exact .refl _
  | log records _ ih => exact ih.trans (.log records _)

namespace Executor

def guard (e : Executor) : Breaker.Guard :=
  ⟨.own .serviceUnavailable, e.breaker.name, counts, fun _ => []⟩

theorem call_undrafted [HostEncoder] {e : Executor} {c : Call} {f : Failure} (hdraft : e.draft c = .error f)
    (h : Host) : e.call c h = (.error f, e, h) := by
  unfold call
  rw [hdraft]

theorem call_refused [HostEncoder] {e : Executor} {c : Call} {d : Draft} {h : Host}
    (hdraft : e.draft c = .ok d) (henter : e.breaker.enter h.journal.now = none) :
    e.call c h =
      (.error (.circuitOpen (.own .serviceUnavailable) e.breaker.name), e, h) := by
  unfold call
  rw [hdraft]
  dsimp only
  unfold Breaker.run
  rw [show e.breaker.enter (HasJournal.journal (e.auth, h)).now = none from henter]

theorem call_of_enter [HostEncoder] {e : Executor} {c : Call} {h h' : Host} {d : Draft} {b : Breaker}
    {records : List LogRecord} {result : Except Failure Response} {a : RequestAuth}
    (hdraft : e.draft c = .ok d) (henter : e.breaker.enter h.journal.now = some (b, records))
    (hattempt : e.attempt d (e.auth, HasJournal.log records h) = (result, a, h')) :
    ∃ h'', Breaker.Logged (a, h') (a, h'') ∧
      e.call c h = (Breaker.seen e.guard b ⟨result, h'.journal.now⟩,
        { e with breaker := Breaker.after e.guard b ⟨result, h'.journal.now⟩, auth := a }, h'') := by
  obtain ⟨⟨a', h''⟩, hlogged, hrun⟩ :=
    Breaker.run_of_enter e.guard (e.attempt d) (e.auth, h) henter hattempt
  obtain rfl : a' = a := hlogged.fst
  refine ⟨h'', hlogged, ?_⟩
  unfold call
  rw [hdraft]
  dsimp only
  unfold Breaker.Guard.run guard at hrun
  rw [hrun]
  rfl

def Runs (e : Executor) (c : Call) (h : Host) : Prop :=
  (∃ d, e.draft c = .ok d) ∧ (e.breaker.enter h.journal.now).isSome = true

/-- A draft of which no request can be made: it cannot be prepared, or not be signed. -/
def Unready [HostEncoder] (a : RequestAuth) (d : Draft) (h : Host) (f : Failure) : Prop :=
  Request.prepare d.method d.endpoint d.headers d.body = .error f ∨
    ∃ r, Request.prepare d.method d.endpoint d.headers d.body = .ok r ∧ (a.sign r h).1 = .error f

def FailsUnready [HostEncoder] (e : Executor) (c : Call) (h : Host) (f : Failure) : Prop :=
  ∃ d b records, e.draft c = .ok d ∧ e.breaker.enter h.journal.now = some (b, records) ∧
    Unready e.auth d (HasJournal.log records h) f

theorem Unready.isLocal [HostEncoder] {a : RequestAuth} {d : Draft} {h : Host} {f : Failure}
    (hunready : Unready a d h f) : f.isLocal = true := by
  rcases hunready with hprepare | ⟨r, _, hsign⟩
  · exact Request.prepare_local _ _ _ _ f hprepare
  · exact a.sign_local r h f hsign

theorem transmit_unsent {e : Executor} {d : Draft} {r : Request} {h : Host}
    (hsent : (e.transmit d r h).2.sent = h.sent) :
    ∃ f, (e.transmit d r h).1 = .error f ∧ counts f = true := by
  cases hserved : Target.isServed r.url with
  | false =>
      unfold transmit
      rw [Host.exchange_unserved _ _ _ _ _ hserved]
      exact ⟨.callFailed e.connector.name d.endpoint (.schemeUnserved r.url), rfl, rfl⟩
  | true =>
      have hmore := (Host.exchange_sent e.session d.streamed e.settings.connectTimeout
        e.settings.readTimeout h hserved).sent
      have hgrown : (e.transmit d r h).2.sent = h.sent ++
          [⟨e.session, r, d.streamed, e.settings.connectTimeout, e.settings.readTimeout⟩] := by
        unfold transmit
        dsimp only
        split
        next hrun =>
          rw [hrun] at hmore
          exact hmore
        next hrun =>
          rw [hrun] at hmore
          split <;> exact hmore
      rw [hgrown] at hsent
      simp at hsent

theorem attempt_unsent [HostEncoder] {e : Executor} {d : Draft} {a : RequestAuth} {h : Host}
    (hsent : (e.attempt d (a, h)).2.2.sent = h.sent) :
    ∃ f, (e.attempt d (a, h)).1 = .error f ∧ (counts f = true ∨ Unready a d h f) := by
  have htries := e.attempt_tries d a h
  generalize e.attempt d (a, h) = ending at hsent htries ⊢
  cases htries with
  | unprepared hprepare => exact ⟨_, rfl, .inr (.inl hprepare)⟩
  | @unsigned r f a' h' hprepare hsign =>
      exact ⟨f, rfl, .inr (.inr ⟨r, hprepare, by rw [hsign]⟩)⟩
  | @sent r r' a' h' _ hsign =>
      have hstill := a.sign_still r h
      rw [hsign] at hstill
      have hbefore : h'.sent = h.sent := hstill.sent
      have hunsent : (e.transmit d r' h').2.sent = h'.sent := hsent.trans hbefore.symm
      obtain ⟨f, hfails, hcounts⟩ := transmit_unsent hunsent
      exact ⟨f, hfails, .inl hcounts⟩

/-- The three ways of a call: it is turned away, its exchange fails, or it passes for a success. -/
inductive Ends [HostEncoder] (e : Executor) (c : Call) (h : Host) :
    Except Failure Response × Executor × Host → Prop
  | refused {f : Failure} {e' : Executor} {h' : Host} : ¬e.Runs c h → e'.breaker = e.breaker →
      Ends e c h (.error f, e', h')
  | failed {f : Failure} {e' : Executor} {h' : Host} : e.Runs c h → counts f = true →
      e'.breaker.failures = e.breaker.failures + 1 →
      (e.breaker.circuit ≠ .closed → e'.breaker.circuit ≠ .closed) → Ends e c h (.error f, e', h')
  | passed {result : Except Failure Response} {e' : Executor} {h' : Host} : e.Runs c h →
      (∀ f, result = .error f → counts f = false) →
      e'.breaker = { e.breaker with circuit := .closed, failures := 0 } →
      (h'.sent = h.sent → ∃ f, result = .error f ∧ e.FailsUnready c h f) →
      Ends e c h (result, e', h')

theorem ends_of_passed [HostEncoder] {e e' : Executor} {c : Call} {h h' : Host} {b : Breaker}
    {records : List LogRecord} (henter : e.breaker.enter h.journal.now = some (b, records))
    (hruns : e.Runs c h) {ending : Breaker.Ending Response} (hpassed : ending.failed counts = false)
    (hunsent : h'.sent = h.sent →
      ∃ f, ending.result = .error f ∧ (counts f = true ∨ e.FailsUnready c h f))
    (hafter : e'.breaker = Breaker.after e.guard b ending) :
    Ends e c h (Breaker.seen e.guard b ending, e', h') := by
  have hguard : ending.failed e.guard.counts = false := hpassed
  have huncounted : ∀ f, ending.result = .error f → counts f = false := by
    intro f hf
    rwa [Breaker.Ending.failed, hf] at hpassed
  obtain ⟨hpass, hseen⟩ := Breaker.after_of_passed hguard b
  rw [hseen]
  refine .passed hruns huncounted (hafter.trans (hpass.trans (Breaker.pass_of_enter henter)))
    fun hnone => ?_
  obtain ⟨f, hf, hcounted | hunready⟩ := hunsent hnone
  · rw [huncounted f hf] at hcounted
    cases hcounted
  · exact ⟨f, hf, hunready⟩

theorem ends_of_failed [HostEncoder] {e e' : Executor} {c : Call} {h h' : Host} {b : Breaker}
    {records : List LogRecord} (henter : e.breaker.enter h.journal.now = some (b, records))
    (hruns : e.Runs c h) {ending : Breaker.Ending Response} (hfailed : ending.failed counts = true)
    (hafter : e'.breaker = Breaker.after e.guard b ending) :
    Ends e c h (Breaker.seen e.guard b ending, e', h') := by
  obtain ⟨f, hresult, hcounts⟩ := Breaker.result_of_failed hfailed
  have hguard : e.guard.counts f = true := hcounts
  obtain ⟨hmore, hopen⟩ := Breaker.trip_of_enter henter ending.time f
  have hcircuit := (Breaker.enter_cases henter).2.2.2.imp And.right And.right
  rw [Breaker.after_of_failed hresult hguard b] at hafter
  obtain ⟨result, time⟩ := ending
  obtain rfl : result = .error f := hresult
  rw [Breaker.seen_of_failed hguard hcircuit]
  refine .failed hruns ?_ (by rw [hafter, hmore]) (by rw [hafter]; exact hopen)
  -- the error that stands for an open circuit counts as well
  split
  next => rfl
  next => exact hcounts

theorem call_ends [HostEncoder] (e : Executor) (c : Call) (h : Host) : Ends e c h (e.call c h) := by
  cases hdraft : e.draft c with
  | error f =>
      rw [call_undrafted hdraft]
      exact .refused (fun ⟨⟨d, hd⟩, _⟩ => by rw [hdraft] at hd; cases hd) rfl
  | ok d =>
      cases henter : e.breaker.enter h.journal.now with
      | none =>
          rw [call_refused hdraft henter]
          exact .refused (fun ⟨_, hruns⟩ => by rw [henter] at hruns; cases hruns) rfl
      | some entered =>
          obtain ⟨b, records⟩ := entered
          have hruns : e.Runs c h := ⟨⟨d, hdraft⟩, by rw [henter]; rfl⟩
          cases hattempt : e.attempt d (e.auth, HasJournal.log records h) with
          | mk result s =>
              obtain ⟨a, h'⟩ := s
              obtain ⟨hend, hlogged, hcall⟩ := call_of_enter hdraft henter hattempt
              have hsame : hend.sent = h'.sent := hlogged.still.sent
              rw [hcall]
              cases hfailed : Breaker.Ending.failed counts ⟨result, h'.journal.now⟩ with
              | true => exact ends_of_failed henter hruns hfailed rfl
              | false =>
                  refine ends_of_passed henter hruns hfailed (fun hnone => ?_) rfl
                  have hunsent : (e.attempt d (e.auth, HasJournal.log records h)).2.2.sent =
                      (HasJournal.log records h).sent := by
                    rw [hattempt, ← hsame, hnone]
                    rfl
                  obtain ⟨f, hf, hcounts | hunready⟩ := attempt_unsent hunsent
                  · exact ⟨f, by rw [← hf, hattempt], .inl hcounts⟩
                  · exact ⟨f, by rw [← hf, hattempt],
                      .inr ⟨d, b, records, hdraft, henter, hunready⟩⟩

def Keeps (b b' : Breaker) : Prop :=
  b'.failures = b.failures ∧ (b.circuit ≠ .closed → b'.circuit ≠ .closed)

/-- A call that fails without a trace: it does not run, or it is not ready and there is nothing that it
could undo. -/
def Traceless [HostEncoder] (e : Executor) (c : Call) (h : Host) (f : Failure) : Prop :=
  ¬e.Runs c h ∨
    e.FailsUnready c h f ∧ e.breaker.circuit = .closed ∧ e.breaker.failures = 0

theorem FailsUnready.runs [HostEncoder] {e : Executor} {c : Call} {h : Host} {f : Failure}
    (hunready : e.FailsUnready c h f) : e.Runs c h ∧ counts f = false := by
  obtain ⟨d, b, records, hdraft, henter, hfails⟩ := hunready
  exact ⟨⟨⟨d, hdraft⟩, by rw [henter]; rfl⟩, Failure.counts_of_isLocal hfails.isLocal⟩

theorem unsent_ends [HostEncoder] {e e' : Executor} {c : Call} {h h' : Host} {f : Failure}
    (hends : Ends e c h (.error f, e', h')) (hunsent : h'.sent = h.sent) :
    (e.FailsUnready c h f →
      e'.breaker = { e.breaker with circuit := .closed, failures := 0 }) ∧
      (Keeps e.breaker e'.breaker → Traceless e c h f) ∧
      (Traceless e c h f → e'.breaker = e.breaker) := by
  cases hends with
  | refused hnot hsame =>
      exact ⟨fun hunready => absurd hunready.runs.1 hnot, fun _ => .inl hnot, fun _ => hsame⟩
  | failed hruns hcounts hmore hopen =>
      have hready : ¬e.FailsUnready c h f := by
        intro hunready
        rw [hunready.runs.2] at hcounts
        cases hcounts
      refine ⟨fun hunready => absurd hunready hready, fun hkeeps => ?_, fun htraceless => ?_⟩
      · have hsame := hkeeps.1
        omega
      · rcases htraceless with hnot | ⟨hunready, _⟩
        · exact absurd hruns hnot
        · exact absurd hunready hready
  | passed hruns hcounts hpass hnone =>
      obtain ⟨f', hf, hunready⟩ := hnone hunsent
      cases hf
      refine ⟨fun _ => hpass, fun hkeeps => .inr ⟨hunready, ?_, ?_⟩, fun htraceless => ?_⟩
      · by_contra hopen
        exact hkeeps.2 hopen (by rw [hpass])
      · rw [← hkeeps.1, hpass]
      · rcases htraceless with hnot | ⟨_, hclosed, hnone⟩
        · exact absurd hruns hnot
        · rw [hpass, ← hclosed, ← hnone]

/-- An open circuit closes just when a call runs that is answered or fails with an error that does not
count, so also when nothing is sent. A call that fails with nothing sent leaves the breaker as it was
just when it does not run, or cannot be made ready and finds a closed circuit without a failure. -/
theorem breaker_after_call [HostEncoder] {e e' : Executor} {c : Call} {h h' : Host}
    {result : Except Failure Response} (hcall : e.call c h = (result, e', h')) :
    (e.breaker.circuit ≠ .closed →
      (e'.breaker.circuit = .closed ↔
        e.Runs c h ∧ ∀ f, result = .error f → counts f = false)) ∧
    ∀ f, result = .error f → h'.sent = h.sent →
      (e.FailsUnready c h f →
        e'.breaker = { e.breaker with circuit := .closed, failures := 0 }) ∧
      (Keeps e.breaker e'.breaker ↔ Traceless e c h f) ∧
      (e'.breaker = e.breaker ↔ Traceless e c h f) := by
  have hends := e.call_ends c h
  rw [hcall] at hends
  constructor
  · intro hopened
    cases hends with
    | refused hnot hsame =>
        rw [hsame]
        exact ⟨fun hclosed => absurd hclosed hopened, fun hruns => absurd hruns.1 hnot⟩
    | @failed f e' h' hruns hcounts hmore hopen =>
        refine ⟨fun hclosed => absurd hclosed (hopen hopened), fun hpasses => ?_⟩
        have hpassed : counts f = false := hpasses.2 f rfl
        rw [hcounts] at hpassed
        cases hpassed
    | passed hruns hcounts hpass hunsent =>
        exact ⟨fun _ => ⟨hruns, hcounts⟩, fun _ => by rw [hpass]⟩
  · rintro f rfl hunsent
    obtain ⟨hpass, hkept, hsame⟩ := unsent_ends hends hunsent
    have hkeeps : e'.breaker = e.breaker → Keeps e.breaker e'.breaker := by
      intro heq
      rw [heq]
      exact ⟨rfl, id⟩
    exact ⟨hpass, ⟨hkept, fun htraceless => hkeeps (hsame htraceless)⟩,
      ⟨fun heq => hkept (hkeeps heq), hsame⟩⟩

def trialConnector : Connector where
  name := .str "c"
  protocol := .http
  description := .null
  version := .null
  parameters := []
  credential := []
  actions := [⟨.predict, "GET", "http://x/", none, .null⟩]
  backendRoles := []
  accessMode := .null
  owner := .null
  auth := none

def trialSettings : HttpSettings := { HttpSettings.standard with breakerThreshold := 1 }

def trialExecutor : Executor where
  kind := .http
  connector := trialConnector
  settings := trialSettings
  decrypt := none
  breaker := .create (breakerName trialConnector) 1 30
  auth := .unsigned

def trialCall (endpoint : Text) : Call := ⟨endpoint, some "GET", none, .predict, []⟩

def tripped : Executor × Host :=
  match trialExecutor.call (trialCall "http://x/") (Host.start 0) with
  | (_, e, h) => (e, HasJournal.advance 30 h)

theorem eq_error_of_map {result : Except Failure Response} {f : Failure}
    (h : result.map (fun _ => ()) = .error f) : result = .error f := by
  cases result with
  | ok => cases h
  | error f' =>
      cases h
      rfl

theorem tripped_call : ((tripped.1.call (trialCall "x/y") tripped.2).1.map fun _ => ()) =
      .error (.schemeMissing "x/y") ∧
    (tripped.1.call (trialCall "x/y") tripped.2).2.2.sent = tripped.2.sent := by
  decide +kernel

theorem tripped_unready :
    tripped.1.FailsUnready (trialCall "x/y") tripped.2 (.schemeMissing "x/y") := by
  have henter : (tripped.1.breaker.enter tripped.2.journal.now).isSome = true := by decide +kernel
  obtain ⟨⟨b, records⟩, henter⟩ := Option.isSome_iff_exists.mp henter
  exact ⟨⟨"x/y", "GET", [(contentType, "application/json")], none, false⟩, b, records,
    by decide +kernel, henter, .inl (by decide +kernel)⟩

theorem trial_without_scheme_closes :
    (tripped.1.call (trialCall "x/y") tripped.2).2.2.sent = tripped.2.sent ∧
      (tripped.1.call (trialCall "x/y") tripped.2).2.1.breaker =
        { tripped.1.breaker with circuit := .closed, failures := 0 } :=
  ⟨tripped_call.2, ((breaker_after_call (e := tripped.1) (c := trialCall "x/y") (h := tripped.2)
    rfl).2 _ (eq_error_of_map tripped_call.1) tripped_call.2).1 tripped_unready⟩

/-- The executors and hosts that calls lead to, with anything happening to the host between them. -/
inductive Reached [HostEncoder] : Executor → Host → Prop
  | created {kind : ExecutorKind} {c : Connector} {settings : HttpSettings}
      {decrypt : Option Decryptor} {h h' : Host} {e : Executor} :
      create kind c settings decrypt h = (.ok e, h') → Reached e h'
  | called {e : Executor} {h : Host} (c : Call) : Reached e h →
      Reached (e.call c h).2.1 (e.call c h).2.2
  | between {e : Executor} {h : Host} (change : Host → Host) : Reached e h → Reached e (change h)

theorem reached_tripped : Reached tripped.1 tripped.2 := by
  have hcreated : create .http trialConnector trialSettings none (Host.start 0) =
      (.ok trialExecutor, Host.start 0) := rfl
  exact ((Reached.created hcreated).called (trialCall "http://x/")).between
    (HasJournal.advance 30)

/-- A call that fails with nothing sent can close an open circuit. -/
theorem unsent_call_closes : ¬∀ (e e' : Executor) (c : Call) (h h' : Host) (f : Failure),
    Reached e h → e.call c h = (.error f, e', h') → h'.sent = h.sent →
      Keeps e.breaker e'.breaker := by
  intro hall
  have hcall : tripped.1.call (trialCall "x/y") tripped.2 = (.error (.schemeMissing "x/y"),
      (tripped.1.call (trialCall "x/y") tripped.2).2.1,
      (tripped.1.call (trialCall "x/y") tripped.2).2.2) :=
    Prod.ext (eq_error_of_map tripped_call.1) rfl
  have hkeeps := hall _ _ _ _ _ _ reached_tripped hcall tripped_call.2
  exact absurd hkeeps.1 (by decide +kernel)

end Executor

end RemoteModel
