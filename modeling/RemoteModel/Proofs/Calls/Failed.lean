import RemoteModel.Proofs.Calls.Unsent
import RemoteModel.Proofs.Results

/-!
Calls whose exchange fails. The error tells the connector, the endpoint and what went wrong as long as
the circuit stays closed; the failure that opens the circuit is told as an open circuit and nothing more.
-/

namespace RemoteModel

namespace Executor

/-- The request of a call was handed to the network, which failed it. -/
def ExchangeFails [HostEncoder] (e : Executor) (c : Call) (h : Host) (f : Failure) : Prop :=
  ∃ d b records r r' a h' h'', e.draft c = .ok d ∧
    e.breaker.enter h.journal.now = some (b, records) ∧
    Request.prepare d.method d.endpoint d.headers d.body = .ok r ∧
    e.auth.sign r (HasJournal.log records h) = (.ok r', a, h') ∧
    h'.exchange e.session r' d.streamed e.settings.connectTimeout e.settings.readTimeout =
      (.error f, h'') ∧
    f.isA (.http .request) = true

/-- An error that tells the call which it ended, and what it was raised from. -/
structure Tells (e : Executor) (c : Call) (f g : Failure) : Prop where
  kind : g.isA (.own .transport) = true
  connector : g.connector = e.connector.name
  endpoint : g.endpoint = .str c.endpoint
  cause : g.cause? = some f

theorem draft_endpoint {e : Executor} {c : Call} {d : Draft} (hdraft : e.draft c = .ok d) :
    d.endpoint = c.endpoint := by
  unfold draft at hdraft
  obtain ⟨method, _, hdraft⟩ := ok_of_bind hdraft
  obtain ⟨body, _, hdraft⟩ := ok_of_bind hdraft
  obtain ⟨headers, _, hdraft⟩ := ok_of_bind hdraft
  cases hdraft
  rfl

theorem transmit_of_exchange {e : Executor} {d : Draft} {r : Request} {h h' : Host} {f : Failure}
    (hexchange : h.exchange e.session r d.streamed e.settings.connectTimeout e.settings.readTimeout =
      (.error f, h')) (hkind : f.isA (.http .request) = true) :
    e.transmit d r h = (.error (.callFailed e.connector.name d.endpoint f),
      HasJournal.log [e.failureRecord d f] h') := by
  unfold transmit
  dsimp only
  rw [hexchange]
  dsimp only
  rw [if_pos hkind]

theorem attempt_of_exchange [HostEncoder] {e : Executor} {d : Draft} {a a' : RequestAuth} {h h' h'' : Host}
    {r r' : Request} {f : Failure}
    (hprepare : Request.prepare d.method d.endpoint d.headers d.body = .ok r)
    (hsign : a.sign r h = (.ok r', a', h'))
    (hexchange : h'.exchange e.session r' d.streamed e.settings.connectTimeout e.settings.readTimeout =
      (.error f, h'')) (hkind : f.isA (.http .request) = true) :
    e.attempt d (a, h) = (.error (.callFailed e.connector.name d.endpoint f), a',
      HasJournal.log [e.failureRecord d f] h'') := by
  unfold attempt
  rw [hprepare]
  dsimp only
  rw [hsign]
  dsimp only
  rw [transmit_of_exchange hexchange hkind]

theorem tells_callFailed (e : Executor) (c : Call) (f : Failure) :
    Tells e c f (.callFailed e.connector.name c.endpoint f) :=
  ⟨rfl, rfl, rfl, rfl⟩

theorem not_tells_circuitOpen (e : Executor) (c : Call) (f : Failure) (kind : ErrorClass)
    (service : Text) : ¬Tells e c f (.circuitOpen kind service) := by
  rintro ⟨_, _, _, hcause⟩
  cases hcause

theorem call_counted [HostEncoder] {e : Executor} {c : Call} {h h' : Host} {d : Draft} {b : Breaker}
    {records : List LogRecord} {f : Failure} {a : RequestAuth} (hdraft : e.draft c = .ok d)
    (henter : e.breaker.enter h.journal.now = some (b, records))
    (hattempt : e.attempt d (e.auth, HasJournal.log records h) = (.error f, a, h'))
    (hcounts : counts f = true) :
    ∃ b' hend, e.call c h = (.error (if b'.circuit = .closed then f
        else .circuitOpen (.own .serviceUnavailable) e.breaker.name),
          { e with breaker := b', auth := a }, hend) ∧ Host.Still h' hend ∧
      b'.failures = e.breaker.failures + 1 ∧ (b'.circuit = .closed ↔
        e.breaker.circuit = .closed ∧ (e.breaker.failures : Int) + 1 < e.breaker.threshold) := by
  obtain ⟨hend, hlogged, hcall⟩ := call_of_enter hdraft henter hattempt
  obtain ⟨hthreshold, _, hfailures, hcircuit⟩ := Breaker.enter_cases henter
  obtain ⟨hmore, _, _, hopens, hnext⟩ := Breaker.trip_eq b h'.journal.now f
  have hguard : e.guard.counts f = true := hcounts
  rw [Breaker.seen_of_failed hguard (hcircuit.imp And.right And.right),
    Breaker.after_of_failed rfl hguard b, hopens] at hcall
  refine ⟨_, hend, hcall.trans ?_, hlogged.still, hmore.trans (by rw [hfailures]), ?_⟩ <;>
    rw [hnext]
  -- a trial that fails opens the circuit, and so does the failure that reaches the threshold
  all_goals
    by_cases hopen : b.circuit = .halfOpen ∨ b.threshold ≤ (b.failures : Int) + 1
  · rw [decide_eq_true hopen, if_pos hopen, if_pos rfl, if_neg nofun]
    rfl
  · have hclosed : b.circuit = .closed :=
      (hcircuit.resolve_right fun hhalf => hopen (.inl hhalf.2)).2
    rw [decide_eq_false hopen, if_neg hopen, if_neg Bool.false_ne_true, if_pos hclosed]
  · rw [if_pos hopen]
    refine iff_of_false nofun fun ⟨hclosed, hfew⟩ => ?_
    rcases hcircuit with ⟨_, hclosed'⟩ | ⟨hopened, _⟩
    · rw [hclosed', hthreshold, hfailures] at hopen
      exact Int.not_le.mpr hfew (hopen.resolve_left nofun)
    · exact hopened hclosed
  · obtain ⟨hclosed, hclosed'⟩ : e.breaker.circuit = .closed ∧ b.circuit = .closed :=
      hcircuit.resolve_right fun hhalf => hopen (.inl hhalf.2)
    rw [if_neg hopen]
    refine iff_of_true hclosed' ⟨hclosed, Int.not_le.mp fun hmany => hopen (.inr ?_)⟩
    rwa [hthreshold, hfailures]

theorem call_of_failed_exchange [HostEncoder] {e : Executor} {c : Call} {h : Host} {f : Failure}
    (hfails : e.ExchangeFails c h f) :
    ∃ g e' h', e.call c h = (.error g, e', h') ∧
      (e'.breaker.circuit = .closed ↔
        e.breaker.circuit = .closed ∧ (e.breaker.failures : Int) + 1 < e.breaker.threshold) ∧
      g = if e'.breaker.circuit = .closed then .callFailed e.connector.name c.endpoint f
        else .circuitOpen (.own .serviceUnavailable) e.breaker.name := by
  obtain ⟨d, b, records, r, r', a, h', h'', hdraft, henter, hprepare, hsign, hexchange, hkind⟩ :=
    hfails
  have hattempt := attempt_of_exchange (e := e) hprepare hsign hexchange hkind
  obtain ⟨b', hend, hcall, _, _, hcircuit⟩ := call_counted hdraft henter hattempt rfl
  rw [draft_endpoint hdraft] at hcall
  exact ⟨_, _, hend, hcall, hcircuit, rfl⟩

/-- A call whose exchange fails ends in an error of the transport. It tells the call and its cause just
when the circuit stays closed, so when the failure is not the one that reaches the threshold, nor that of
a trial; otherwise it says only that the circuit is open. -/
theorem error_of_failed_exchange [HostEncoder] {e : Executor} {c : Call} {h : Host} {f : Failure}
    (hfails : e.ExchangeFails c h f) :
    ∃ g e' h', e.call c h = (.error g, e', h') ∧ g.isA (.own .transport) = true ∧
      (e'.breaker.circuit = .closed ↔
        e.breaker.circuit = .closed ∧ (e.breaker.failures : Int) + 1 < e.breaker.threshold) ∧
      (Tells e c f g ↔ e'.breaker.circuit = .closed) ∧
      g = if e'.breaker.circuit = .closed then .callFailed e.connector.name c.endpoint f
        else .circuitOpen (.own .serviceUnavailable) e.breaker.name := by
  obtain ⟨g, e', h', hcall, hcircuit, rfl⟩ := call_of_failed_exchange hfails
  refine ⟨_, e', h', hcall, ?_, hcircuit, ?_, rfl⟩
  · split <;> rfl
  · split
    next hclosed => exact iff_of_true (tells_callFailed e c f) hclosed
    next hopen => exact iff_of_false (not_tells_circuitOpen e c f _ _) hopen

def refused : Failure := .reported (.http .connection) "refused"

def refusingHost : Host := { Host.start 0 with exchanges := [⟨0, .error refused⟩] }

def trialWith (threshold : Int) : Executor :=
  { trialExecutor with breaker := .create (breakerName trialConnector) threshold 30 }

def trialRequest : Request :=
  ⟨"GET", "http://x/", (Headers.ofEntries Request.standardHeaders).putAll
    [(contentType, "application/json")], none⟩

theorem trial_exchange_fails (threshold : Int) :
    (trialWith threshold).ExchangeFails (trialCall "http://x/") refusingHost refused := by
  have hdraft : trialExecutor.draft (trialCall "http://x/") =
      .ok ⟨"http://x/", "GET", [(contentType, "application/json")], none, false⟩ := by
    decide +kernel
  have hprepare : Request.prepare "GET" "http://x/" [(contentType, "application/json")] none =
      .ok trialRequest := by decide +kernel
  have hsign : trialRequest.withUser = .ok trialRequest := by decide +kernel
  have hexchange : (refusingHost.exchange (trialWith threshold).session trialRequest false
      trialSettings.connectTimeout trialSettings.readTimeout).1 = .error refused := by
    have hserved : Target.isServed trialRequest.url = true := by decide +kernel
    unfold Host.exchange
    rw [hserved]
    rfl
  refine ⟨_, (trialWith threshold).breaker, [], trialRequest, trialRequest, .unsigned,
    HasJournal.log [] refusingHost, _, hdraft, rfl, hprepare, ?_, Prod.ext hexchange rfl, by decide⟩
  exact Prod.ext hsign rfl

theorem lone_failure_told :
    (trialWith 2).ExchangeFails (trialCall "http://x/") refusingHost refused ∧
      ∃ g e' h', (trialWith 2).call (trialCall "http://x/") refusingHost = (.error g, e', h') ∧
        Tells (trialWith 2) (trialCall "http://x/") refused g := by
  obtain ⟨g, e', h', hcall, _, hcircuit, htells, _⟩ :=
    error_of_failed_exchange (trial_exchange_fails 2)
  exact ⟨trial_exchange_fails 2, g, e', h', hcall, htells.mpr (hcircuit.mpr ⟨rfl, by decide⟩)⟩

/-- The failure that opens the circuit does not tell its call. -/
theorem opening_failure_untold : ¬∀ (e e' : Executor) (c : Call) (h h' : Host) (f g : Failure),
    Reached e h → e.ExchangeFails c h f → e.call c h = (.error g, e', h') → Tells e c f g := by
  intro hall
  have hcreated : create .http trialConnector trialSettings none refusingHost =
      (.ok (trialWith 1), refusingHost) := rfl
  obtain ⟨g, e', h', hcall, hcircuit, rfl⟩ :=
    call_of_failed_exchange (trial_exchange_fails 1)
  have hopen : e'.breaker.circuit ≠ .closed := fun hclosed =>
    absurd (hcircuit.mp hclosed).2 (by decide)
  rw [if_neg hopen] at hcall
  exact not_tells_circuitOpen _ _ _ _ _
    (hall _ _ _ _ _ _ _ (.created hcreated) (trial_exchange_fails 1) hcall)

end Executor

end RemoteModel
