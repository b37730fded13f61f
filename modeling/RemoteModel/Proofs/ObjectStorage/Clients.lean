import RemoteModel.ObjectStorage
import RemoteModel.Proofs.Auth.Lazy
import RemoteModel.Proofs.Resilience.Runs

/-!
The client of an object storage. It is opened once there is a signer, with the signer that stays from then
on, and it is kept through all downloads that follow.
-/

namespace RemoteModel

namespace Host

theorem clients_buildSigner (plan : SignerPlan) (h : Host) :
    (h.buildSigner plan).2.clients = h.clients := by
  unfold buildSigner
  dsimp only
  cases h.signers <;> rfl

theorem clients_fetch (name : ObjectName) (h : Host) : (h.fetch name).2.clients = h.clients := by
  unfold fetch
  dsimp only
  cases h.deliveries <;> rfl

theorem clients_supply (source : SignerSource) (h : Host) :
    (source.supply h).2.clients = h.clients := by
  unfold SignerSource.supply
  cases source with
  | custom => exact h.clients_buildSigner _
  | resource => exact h.clients_buildSigner _
  | machine => exact h.clients_buildSigner _
  | user d =>
      dsimp only
      split
      next => rfl
      next key _ =>
        have hbuilt := h.clients_buildSigner (.user d key)
        split
        next hrun => rwa [hrun] at hbuilt
        next hrun => rwa [hrun] at hbuilt

theorem clients_get (s : LazySigner) (h : Host) : (s.get h).2.2.clients = h.clients := by
  have hsupplied := clients_supply s.source h
  unfold LazySigner.get
  cases s.signer with
  | some signer => rfl
  | none =>
      dsimp only
      generalize s.source.supply h = supplied at hsupplied ⊢
      obtain ⟨result, h'⟩ := supplied
      cases result <;> exact hsupplied

end Host

namespace ObjectStorage

variable {s : ObjectStorage} {before : List StorageClient} {w : ObjectStorage × Host}

/-- The clients of a storage from a state on: none as long as it is not open, and then the one for the
signer that is there. -/
structure Opens (s : ObjectStorage) (before : List StorageClient) (w : ObjectStorage × Host) : Prop where
  same : w.1.clientFor = s.clientFor
  clients : w.1.isOpen = false ∧ w.2.clients = before ∨ w.1.isOpen = true ∧
    ∃ signer, w.1.signer.signer = some signer ∧ w.2.clients = before ++ [s.clientFor signer]

theorem Opens.of_clients {h' : Host} (h : Opens s before w) (hclients : h'.clients = w.2.clients) :
    Opens s before (w.1, h') :=
  ⟨h.same, by rw [hclients]; exact h.clients⟩

theorem opens_unlogged (s : ObjectStorage) (before : List StorageClient) : Unlogged (Opens s before) :=
  ⟨fun _ _ h => h.of_clients rfl, fun _ _ h => h.of_clients rfl⟩

theorem opens_get (h : Opens s before w) :
    Opens s before ({ w.1 with signer := (w.1.signer.get w.2).2.1 }, (w.1.signer.get w.2).2.2) := by
  have hclients := Host.clients_get w.1.signer w.2
  have hgot := w.1.signer.get_got w.2
  generalize w.1.signer.get w.2 = ending at hclients hgot ⊢
  cases hgot with
  | failed => exact h.of_clients hclients
  | @built signer h' hsame =>
      refine ⟨h.same, ?_⟩
      rcases h.clients with ⟨hclosed, hbefore⟩ | ⟨hopen, x, hx, hbefore⟩
      · exact .inl ⟨hclosed, hclients.trans hbefore⟩
      · cases hsame x hx
        exact .inr ⟨hopen, _, rfl, hclients.trans hbefore⟩

theorem opens_connect (h : Opens s before w) : Opens s before (connect w).2 := by
  have hclients := Host.clients_get w.1.signer w.2
  have hgot := w.1.signer.get_got w.2
  obtain ⟨storage, host⟩ := w
  unfold connect
  dsimp only at h hclients hgot ⊢
  split
  next => exact h
  next hclosed =>
    rcases h.clients with ⟨-, hbefore⟩ | ⟨hopen, -⟩
    · generalize storage.signer.get host = ending at hclients hgot ⊢
      cases hgot with
      | failed => exact h.of_clients hclients
      | @built signer h' =>
          refine ⟨h.same, .inr ⟨rfl, signer, rfl, ?_⟩⟩
          rw [← h.same, ← hbefore, ← hclients]
    · exact absurd hopen hclosed

theorem opens_deliver (name : ObjectName) (target : Path) (h : Opens s before w) :
    Opens s before (deliver name target w).2 := by
  have hconnected := opens_connect h
  unfold deliver
  split
  next hrun => rwa [hrun] at hconnected
  next s' h₁ hrun =>
    rw [hrun] at hconnected
    have hfetched := hconnected.of_clients (Host.clients_fetch name h₁)
    split
    next hfetch => rwa [hfetch] at hfetched
    next d h₂ hfetch =>
      rw [hfetch] at hfetched
      unfold store
      cases Files.write h₂.files target d.pieces.flatten with
      | error => exact hfetched
      | ok files => exact hfetched.of_clients rfl

theorem opens_attempt (name : ObjectName) (target : Path) (h : Opens s before w) :
    Opens s before (attempt name target w).2 := by
  have hjournal := opens_unlogged s before
  have hran := Breaker.run_leads (Opens s before) (Opens s before) (fun _ => Opens s before) w.1.breaker
    (.own .artifactDownload) breakerName Classifier.objectStorage.isRetriable
    Classifier.objectStorage.notes (deliver name target) hjournal hjournal (fun _ => hjournal)
    (fun _ h => h) (fun _ h => Leads.always_iff.mpr (opens_deliver name target h)) h
  have hended := Leads.always_iff.mp hran
  exact ⟨hended.same, hended.clients⟩

inductive Deed where
  | download (name : ObjectName) (target : Path)
  | connect
  | use (u : LazySigner.Use)

/-- A deed, and what has changed around the storage before it. -/
structure Step where
  change : Host → Host
  keeps : ∀ h, (change h).clients = h.clients
  deed : Deed

def act (w : ObjectStorage × Host) : Deed → ObjectStorage × Host
  | .download name target => (w.1.download name target w.2).2
  | .connect => (ObjectStorage.connect w).2
  | .use u => ({ w.1 with signer := (w.1.signer.use u w.2).2.1 }, (w.1.signer.use u w.2).2.2)

def proceed (w : ObjectStorage × Host) (steps : List Step) : ObjectStorage × Host :=
  steps.foldl (fun w t => act (w.1, t.change w.2) t.deed) w

theorem opens_download (name : ObjectName) (target : Path) (h : Opens s before w) :
    Opens s before (w.1.download name target w.2).2 := by
  unfold download
  split
  next => exact h.of_clients rfl
  next files _ =>
    have hlogged : Opens s before
        (w.1, HasJournal.log [w.1.announcement name] { w.2 with files }) := h.of_clients rfl
    have hran := Leads.always_iff.mp (Retry.run_leads (Opens s before) (fun _ => Opens s before)
      w.1.policy .objectStorage voice (attempt name target) (opens_unlogged s before)
      (fun _ h => Leads.always_iff.mpr (opens_attempt name target h)) hlogged)
    dsimp only
    split
    next hrun => rwa [hrun] at hran
    next hrun => rwa [hrun] at hran

theorem opens_act (h : Opens s before w) (d : Deed) : Opens s before (act w d) := by
  cases d with
  | download name target => exact opens_download name target h
  | connect => exact opens_connect h
  | use u =>
      unfold act
      dsimp only
      rw [LazySigner.use_snd]
      exact opens_get h

theorem opens_proceed (steps : List Step) (h : Opens s before w) : Opens s before (proceed w steps) := by
  induction steps generalizing w with
  | nil => exact h
  | cons t steps ih => exact ih (opens_act (h.of_clients (t.keeps w.2)) t.deed)

/-- A signer that is built when it is first needed, through all its uses, whatever its supplier does and
whatever changes in between. Each use up to the first for which it is supplied asks the supplier once and
fails with an error of the key, and all others get what was supplied then; its own supplier is one such. A
storage over a signer opens at most one client, for the signer that is there from then on. -/
theorem used_lazily {s : LazySigner} (hfresh : s.isBuilt = false) :
    (∀ (σ : Type) [HasJournal σ] (supply : σ → Except Failure Signer × σ)
      (turns : List (LazySigner.Turn σ)) (w : σ),
      LazySigner.follow (LazySigner.useBy supply) s turns w =
          ((LazySigner.calls supply s turns w).1.map LazySigner.Call.outcome,
            (LazySigner.calls supply s turns w).2) ∧
        (LazySigner.calls supply s turns w).1.map LazySigner.Call.use =
          turns.map LazySigner.Turn.use ∧
        LazySigner.Course s (LazySigner.calls supply s turns w).1) ∧
      (∀ turns h, s.run turns h = LazySigner.follow (LazySigner.useBy s.source.supply) s turns h) ∧
      (∀ f, f.isA (.basic .exception) = true → (s.blamed f).isA (.own .keyLoad) = true) ∧
      (∀ d s', LazySigner.ofDescriptor d = .ok s' → s'.isBuilt = false) ∧
      ∀ (storage : ObjectStorage) (steps : List Step) (h : Host), storage.isOpen = false →
        Opens storage h.clients (proceed (storage, h) steps) := by
  have hunbuilt : s.signer = none := by simpa [LazySigner.isBuilt] using hfresh
  refine ⟨fun σ _ supply turns w => ?_, s.run_eq_follow, fun f => s.keyLoad_of_blamed,
    fun _ _ => LazySigner.isBuilt_of_ofDescriptor, fun storage steps h hclosed => ?_⟩
  · exact ⟨LazySigner.follow_eq_calls s turns w, LazySigner.calls_uses s turns w,
      LazySigner.calls_course hunbuilt turns w⟩
  · exact opens_proceed steps ⟨rfl, .inl ⟨hclosed, rfl⟩⟩

def customSigner : LazySigner := ⟨"custom", .custom, .null, none⟩

def customStorage : ObjectStorage :=
  create customSigner none defaultConnectTimeout defaultConnectTimeout .standard defaultThreshold
    defaultRecovery

/-- A host whose key service fails once. -/
def balkingHost : Host :=
  { Host.start 0 with signers := [.error (.reported (.basic .valueError) "no key"), .ok ⟨.null, "key"⟩] }

theorem custom_used_lazily :
    let calls := (LazySigner.calls customSigner.source.supply customSigner
      (List.replicate 3 ⟨id, .get⟩) balkingHost).1
    let ending := proceed (customStorage, balkingHost) (List.replicate 3 ⟨id, fun _ => rfl, .connect⟩)
    customSigner.isBuilt = false ∧ LazySigner.Course customSigner calls ∧
      calls.map LazySigner.Call.supplied =
        [[.error (.reported (.basic .valueError) "no key")], [.ok ⟨.null, "key"⟩], []] ∧
      customStorage.isOpen = false ∧ Opens customStorage balkingHost.clients ending ∧
      ending.2.clients = [customStorage.clientFor ⟨.null, "key"⟩] := by
  obtain ⟨hcourse, -, -, -, hopens⟩ := @used_lazily customSigner rfl
  exact ⟨rfl, (hcourse Host _ _ balkingHost).2.2, rfl, rfl, hopens customStorage _ _ rfl, rfl⟩

end ObjectStorage

end RemoteModel
