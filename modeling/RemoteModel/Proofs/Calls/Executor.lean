import RemoteModel.Inference.Service
import RemoteModel.Proofs.Calls.Host
import RemoteModel.Proofs.Calls.Wire
import RemoteModel.Proofs.Resilience.Runs

/-!
Calls of an executor. A call touches no file, and one that succeeds answers with the next reply of the
network.
-/

namespace RemoteModel

open Host

theorem RequestAuth.sign_still (a : RequestAuth) (r : Request) (h : Host) :
    Still h (a.sign r h).2.2 := by
  cases a with
  | unsigned => exact .refl h
  | key => exact .refl h
  | lazy s => exact .sign s r h

namespace Executor

theorem authFor_still (kind : ExecutorKind) (c : Connector) (decrypt : Option Decryptor)
    (h : Host) : Still h (authFor kind c decrypt h).2 := by
  unfold authFor
  split
  next => exact .refl h
  next => exact .refl h
  next =>
    split
    next => exact .refl h
    next d _ => exact .build d h

theorem ofConnector_still (c : Connector) (settings : HttpSettings) (decrypt : Option Decryptor)
    (h : Host) : Still h (ofConnector c settings decrypt h).2 := by
  unfold ofConnector create
  split
  next => exact .refl h
  next =>
    have hauth := authFor_still (.ofProtocol c.protocol) c decrypt h
    split
    next hrun => rwa [hrun] at hauth
    next hrun => rwa [hrun] at hauth

/-- What is given for an answer: the next reply of the network, body and all. -/
def Answers (h : Host) (response : Response) (h' : Host) : Prop :=
  ∃ e a, h.exchanges = e :: h'.exchanges ∧ e.reply = .ok a ∧ response.status = a.status ∧
    OnWire.wire response.body = a.body

theorem wire_responseOf (e : Executor) {d : Draft} {a : Answer}
    (hwhole : d.streamed = false → a.body.fault = none) :
    OnWire.wire (e.responseOf d a).body = a.body := by
  unfold responseOf
  cases hstreamed : d.streamed with
  | true => rfl
  | false =>
      obtain ⟨status, reason, headers, ⟨rest, fault⟩⟩ := a
      obtain rfl : fault = none := hwhole hstreamed
      rfl

theorem transmit_leads (e : Executor) (d : Draft) (r : Request) (h : Host) :
    Leads (fun h' => h'.files = h.files)
      (fun response h' => h'.files = h.files ∧ Answers h response h') (e.transmit d r h) := by
  have hfiles := exchange_files e.session r d.streamed e.settings.connectTimeout
    e.settings.readTimeout h
  unfold transmit
  dsimp only
  split
  next a h' hrun =>
    rw [hrun] at hfiles
    obtain ⟨⟨ex, hexchanges, hreply⟩, hwhole⟩ := exchange_eq_ok hrun
    exact ⟨hfiles, ex, a, hexchanges, hreply, rfl, wire_responseOf e hwhole⟩
  next f h' hrun =>
    rw [hrun] at hfiles
    split <;> exact hfiles

/-- The ways of an attempt: no request can be made of the draft, it cannot be signed, or it is sent. -/
inductive Tries [HostEncoder] (e : Executor) (d : Draft) (a : RequestAuth) (h : Host) :
    Except Failure Response × RequestAuth × Host → Prop
  | unprepared {f : Failure} :
      Request.prepare d.method d.endpoint d.headers d.body = .error f → Tries e d a h (.error f, a, h)
  | unsigned {r : Request} {f : Failure} {a' : RequestAuth} {h' : Host} :
      Request.prepare d.method d.endpoint d.headers d.body = .ok r →
      a.sign r h = (.error f, a', h') → Tries e d a h (.error f, a', h')
  | sent {r r' : Request} {a' : RequestAuth} {h' : Host} :
      Request.prepare d.method d.endpoint d.headers d.body = .ok r →
      a.sign r h = (.ok r', a', h') →
      Tries e d a h ((e.transmit d r' h').1, a', (e.transmit d r' h').2)

theorem attempt_tries [HostEncoder] (e : Executor) (d : Draft) (a : RequestAuth) (h : Host) :
    Tries e d a h (e.attempt d (a, h)) := by
  unfold attempt
  split
  next hprepare => exact .unprepared hprepare
  next r hprepare =>
    dsimp only
    split
    next hsign => exact .unsigned hprepare hsign
    next hsign => exact .sent hprepare hsign

theorem attempt_leads [HostEncoder] (e : Executor) (d : Draft) (s : RequestAuth × Host) :
    Leads (fun s' => s'.2.files = s.2.files)
      (fun response s' => s'.2.files = s.2.files ∧ Answers s.2 response s'.2) (e.attempt d s) := by
  obtain ⟨a, h⟩ := s
  have htries := e.attempt_tries d a h
  generalize e.attempt d (a, h) = ending at htries ⊢
  cases htries with
  | unprepared => rfl
  | @unsigned r f a' h' _ hsign =>
      have hstill := a.sign_still r h
      rw [hsign] at hstill
      exact hstill.files
  | @sent r r' a' h' _ hsign =>
      have hstill := a.sign_still r h
      rw [hsign] at hstill
      have hsent := e.transmit_leads d r' h'
      have hfiles : h'.files = h.files := hstill.files
      have hexchanges : h'.exchanges = h.exchanges := hstill.exchanges
      cases hsending : e.transmit d r' h' with
      | mk result h'' =>
          rw [hsending] at hsent
          cases result with
          | ok response =>
              obtain ⟨hkept, hanswers⟩ := hsent
              unfold Answers at hanswers
              rw [hexchanges] at hanswers
              exact ⟨hkept.trans hfiles, hanswers⟩
          | error => exact Eq.trans hsent hfiles

theorem call_leads [HostEncoder] (e : Executor) (c : Call) (h : Host) :
    Leads (fun s => s.2.files = h.files)
      (fun response s => s.2.files = h.files ∧ Answers h response s.2) (e.call c h) := by
  unfold call
  split
  next => rfl
  next d _ =>
    have hrun := Breaker.run_leads
      (fun s : RequestAuth × Host => s.2.files = h.files ∧ s.2.exchanges = h.exchanges)
      (fun s => s.2.files = h.files)
      (fun response s => s.2.files = h.files ∧ Answers h response s.2)
      e.breaker (.own .serviceUnavailable) e.breaker.name counts (fun _ => []) (e.attempt d)
      ⟨fun _ _ h => h, fun _ _ h => h⟩ ⟨fun _ _ h => h, fun _ _ h => h⟩
      (fun _ => ⟨fun _ _ h => h, fun _ _ h => h⟩) (fun _ h => h.1)
      (fun s hs => (e.attempt_leads d s).mono (fun s' hfiles => hfiles.trans hs.1)
        (fun response s' ⟨hfiles, hanswers⟩ => by
          unfold Answers at hanswers ⊢
          rw [hs.2] at hanswers
          exact ⟨hfiles.trans hs.1, hanswers⟩))
      (s := (e.auth, h)) ⟨rfl, rfl⟩
    split
    next result breaker auth h' hend =>
      rw [hend] at hrun
      cases result <;> exact hrun

end Executor

theorem Service.download_leads [HostEncoder] (c : Connector) (parameters : Entries Json) (e : Executor)
    (h : Host) :
    Leads (fun s => s.2.files = h.files)
      (fun body s => s.2.files = h.files ∧ ∃ ex a, h.exchanges = ex :: s.2.exchanges ∧
        ex.reply = .ok a ∧ 200 ≤ a.status ∧ a.status < 300 ∧ OnWire.wire body = a.body)
      ((Service.standard c).download parameters (e, h)) := by
  unfold Service.download
  dsimp only
  split
  next => rfl
  next call _ =>
    have hcall : Leads _ _ ((standard c).execute call (e, h)) := e.call_leads call h
    split
    next hrun =>
      rw [hrun] at hcall
      exact hcall
    next r s hrun =>
      rw [hrun] at hcall
      obtain ⟨hfiles, ex, a, hexchanges, hreply, hstatus, hwire⟩ := hcall
      split
      next hsuccess =>
        simp only [Response.isSuccess, Bool.and_eq_true, decide_eq_true_eq, hstatus] at hsuccess
        exact ⟨hfiles, ex, a, hexchanges, hreply, hsuccess.1, hsuccess.2, hwire⟩
      next => split <;> exact hfiles

end RemoteModel
