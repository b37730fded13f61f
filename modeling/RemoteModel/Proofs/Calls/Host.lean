import RemoteModel.Auth.LazySigner

/-!
What the work of a call does to the host: signing builds signers and writes to the journal, and only an
exchange takes an answer of the network.
-/

namespace RemoteModel

theorem BodyFault.inExchange_isA (f : BodyFault) : f.inExchange.isA (.http .request) = true := by
  cases f <;> rfl

namespace Host

/-- Hosts between which nothing was sent, fetched or written. -/
structure Still (h h' : Host) : Prop where
  files : h'.files = h.files
  exchanges : h'.exchanges = h.exchanges
  deliveries : h'.deliveries = h.deliveries
  sent : h'.sent = h.sent
  fetched : h'.fetched = h.fetched

namespace Still

theorem refl (h : Host) : Still h h := ⟨rfl, rfl, rfl, rfl, rfl⟩

theorem trans {h h' h'' : Host} (hfirst : Still h h') (hsecond : Still h' h'') : Still h h'' :=
  ⟨hsecond.files.trans hfirst.files, hsecond.exchanges.trans hfirst.exchanges,
    hsecond.deliveries.trans hfirst.deliveries, hsecond.sent.trans hfirst.sent,
    hsecond.fetched.trans hfirst.fetched⟩

theorem log (records : List LogRecord) (h : Host) : Still h (HasJournal.log records h) :=
  ⟨rfl, rfl, rfl, rfl, rfl⟩

theorem sleep (seconds : Rat) (h : Host) : Still h (HasJournal.sleep seconds h) :=
  ⟨rfl, rfl, rfl, rfl, rfl⟩

theorem advance (seconds : Rat) (h : Host) : Still h (HasJournal.advance seconds h) :=
  ⟨rfl, rfl, rfl, rfl, rfl⟩

theorem buildSigner (plan : SignerPlan) (h : Host) : Still h (h.buildSigner plan).2 := by
  unfold Host.buildSigner
  dsimp only
  split <;> exact ⟨rfl, rfl, rfl, rfl, rfl⟩

theorem supply (source : SignerSource) (h : Host) : Still h (source.supply h).2 := by
  unfold SignerSource.supply
  split
  next => exact buildSigner _ h
  next => exact buildSigner _ h
  next => exact buildSigner _ h
  next d =>
    split
    next => exact .refl h
    next key _ =>
      have hbuilt := buildSigner (.user d key) h
      split <;> simp_all

theorem get (s : LazySigner) (h : Host) : Still h (s.get h).2.2 := by
  unfold LazySigner.get
  split
  next => exact .refl h
  next =>
    have hsupplied := supply s.source h
    split
    next hrun => rwa [hrun] at hsupplied
    next hrun =>
      rw [hrun] at hsupplied
      exact hsupplied.trans (log _ _)

theorem sign (s : LazySigner) (r : Request) (h : Host) : Still h (s.sign r h).2.2 := by
  have hgot := get s h
  unfold LazySigner.sign
  split
  next hrun => rwa [hrun] at hgot
  next hrun => rwa [hrun] at hgot

theorem build (d : AuthDescriptor) (h : Host) : Still h (LazySigner.build d h).2 := log _ h

end Still

structure Sent (sending : Sending) (h h' : Host) : Prop where
  files : h'.files = h.files
  deliveries : h'.deliveries = h.deliveries
  sent : h'.sent = h.sent ++ [sending]

theorem exchange_sent (session : Session) {r : Request} (streamed : Bool) (connect read : Binary64)
    (h : Host) (hserved : Target.isServed r.url = true) :
    Sent ⟨session, r, streamed, connect, read⟩ h (h.exchange session r streamed connect read).2 := by
  unfold exchange
  rw [if_neg (by simp [hserved])]
  dsimp only
  split
  next => exact ⟨rfl, rfl, rfl⟩
  next =>
    split
    next => exact ⟨rfl, rfl, rfl⟩
    next => split <;> exact ⟨rfl, rfl, rfl⟩

theorem exchange_unserved (session : Session) {r : Request} (streamed : Bool)
    (connect read : Binary64) (h : Host) (hserved : Target.isServed r.url = false) :
    h.exchange session r streamed connect read = (.error (.schemeUnserved r.url), h) := by
  unfold exchange
  rw [if_pos (by simp [hserved])]

theorem exchange_eq_ok {session : Session} {r : Request} {streamed : Bool} {connect read : Binary64}
    {h h' : Host} {a : Answer} (hrun : h.exchange session r streamed connect read = (.ok a, h')) :
    (∃ e, h.exchanges = e :: h'.exchanges ∧ e.reply = .ok a) ∧
      (streamed = false → a.body.fault = none) := by
  unfold exchange at hrun
  split at hrun
  next => simp at hrun
  next =>
    dsimp only at hrun
    split at hrun
    next => simp at hrun
    next e rest hexchanges =>
      split at hrun
      next => simp at hrun
      next answer hreply =>
        split at hrun
        next => simp at hrun
        next hwhole =>
          cases hrun
          refine ⟨⟨e, hexchanges, hreply⟩, fun hstreamed => ?_⟩
          cases hfault : a.body.fault with
          | none => rfl
          | some fault => exact absurd hfault (hwhole fault hstreamed)

theorem exchange_files (session : Session) (r : Request) (streamed : Bool) (connect read : Binary64)
    (h : Host) : (h.exchange session r streamed connect read).2.files = h.files := by
  cases hserved : Target.isServed r.url with
  | true => exact (exchange_sent session streamed connect read h hserved).files
  | false => rw [exchange_unserved session streamed connect read h hserved]

theorem exchange_fetched (session : Session) (r : Request) (streamed : Bool)
    (connect read : Binary64) (h : Host) :
    (h.exchange session r streamed connect read).2.fetched = h.fetched := by
  unfold exchange
  split
  next => rfl
  next =>
    dsimp only
    split
    next => rfl
    next =>
      split
      next => rfl
      next => split <;> rfl

end Host

end RemoteModel
