import RemoteModel.Artifact.Staging
import RemoteModel.Proofs.Artifact.Fetch
import RemoteModel.Proofs.Artifact.Verdict

/-!
What fetching and splitting do to the files of a host. Whatever the source, a fetch makes the folders
above its target and writes the target, and splitting makes a folder and writes the chunks in it; what
these steps keep is kept in the end, however it comes.
-/

namespace RemoteModel

open RemoteModel.Tree Host

/-- What holds of a tree holds when the folders above a file are made and when the file is written. -/
structure Endures (target : Path) (p : Tree → Prop) : Prop where
  made : ∀ t, p t → p (Files.makeFolders target.parent t).2
  written : ∀ t t' content, p t → Files.write t target content = .ok t' → p t'

variable {target : Path} {p : Tree → Prop}

theorem endures_storage (p : Tree → Prop) :
    Unlogged fun s : ObjectStorage × Host => p s.2.files :=
  ⟨fun _ _ h => h, fun _ _ h => h⟩

namespace ObjectStorage

theorem store_endures (hp : Endures target p) (d : Delivery) {h : Host} (hfiles : p h.files) :
    p (store target d h).2.files := by
  unfold store
  split
  next => exact hfiles
  next hwrite => exact hp.written _ _ _ hfiles hwrite

theorem deliver_endures (hp : Endures target p) (name : ObjectName) {s : ObjectStorage × Host}
    (hfiles : p s.2.files) : p (deliver name target s).2.2.files := by
  obtain ⟨storage, h⟩ := s
  have hstill := connect_still storage h
  unfold deliver
  split
  next hrun =>
    rw [hrun] at hstill
    exact hstill.files ▸ hfiles
  next h₁ hrun =>
    rw [hrun] at hstill
    have hfiles₁ : p h₁.files := hstill.files ▸ hfiles
    obtain ⟨hfetched, _⟩ := fetch_cases name h₁
    split
    next hfetch =>
      rw [hfetch] at hfetched
      exact hfetched ▸ hfiles₁
    next d h₂ hfetch =>
      rw [hfetch] at hfetched
      have hfiles₂ : p h₂.files := hfetched ▸ hfiles₁
      exact store_endures hp d hfiles₂

theorem attempt_endures (hp : Endures target p) (name : ObjectName) {s : ObjectStorage × Host}
    (hfiles : p s.2.files) :
    Leads (fun s' => p s'.2.files) (fun _ s' => p s'.2.files) (attempt name target s) := by
  have hbody (s : ObjectStorage × Host) (h : p s.2.files) : Leads (fun s' => p s'.2.files)
      (fun _ s' => p s'.2.files) (deliver name target s) := by
    have hdelivered := deliver_endures hp name h
    cases hrun : deliver name target s with
    | mk result s' =>
        rw [hrun] at hdelivered
        cases result <;> exact hdelivered
  have hrun := Breaker.run_leads _ _ _ s.1.breaker (.own .artifactDownload) breakerName
    Classifier.objectStorage.isRetriable Classifier.objectStorage.notes (deliver name target)
    (endures_storage p) (endures_storage p) (fun _ => endures_storage p) (fun _ h => h) hbody hfiles
  unfold attempt
  dsimp only
  generalize s.1.breaker.run (.own .artifactDownload) breakerName
    Classifier.objectStorage.isRetriable Classifier.objectStorage.notes (deliver name target) s
    = r at hrun ⊢
  obtain ⟨result, breaker, storage, h'⟩ := r
  cases result <;> exact hrun

theorem download_endures (hp : Endures target p) (s : ObjectStorage) (name : ObjectName) {h : Host}
    (hfiles : p h.files) : p (download name target s h).2.2.files := by
  have hmade := hp.made h.files hfiles
  unfold download
  split
  next hmake =>
    rw [hmake] at hmade
    exact hmade
  next files hmake =>
    rw [hmake] at hmade
    have hrun := Retry.run_leads _ _ s.policy .objectStorage voice (attempt name target)
      (endures_storage p) (fun _ => attempt_endures hp name)
      (s := (s, HasJournal.log [s.announcement name] { h with files })) hmade
    dsimp only
    split
    next hend =>
      rw [hend] at hrun
      exact hrun
    next hend =>
      rw [hend] at hrun
      exact hrun

end ObjectStorage

namespace ModelCache

theorem receive_endures {σ : Type} [ByteSource σ] (hp : Endures target p) (source : σ) {h : Host}
    (hfiles : p h.files) : p (receive source target h).2.files := by
  have hmade := hp.made h.files hfiles
  unfold receive
  split
  next hmake =>
    rw [hmake] at hmade
    exact hmade
  next hmake =>
    rw [hmake] at hmade
    dsimp only
    split
    next => exact hmade
    next hwrite => exact hp.written _ _ _ hmade hwrite

theorem get_endures [HostEncoder] (hp : Endures target p) (c : ModelCache) (url : Text) {h : Host}
    (hfiles : p h.files) : p (c.get url target h).2.files := by
  unfold get
  split
  next => exact hfiles
  next r _ =>
    have hkept := exchange_files c.session r true connectTimeout c.layout.downloadTimeout h
    split
    next hrun =>
      rw [hrun] at hkept
      exact hkept ▸ hfiles
    next a h' hrun =>
      rw [hrun] at hkept
      have hfiles' : p h'.files := hkept ▸ hfiles
      split
      next => exact hfiles'
      next => exact receive_endures hp a.body hfiles'

theorem downloadThrough_endures [HostEncoder] (hp : Endures target p) (c : ModelCache) (connector : Connector)
    {h : Host} (hfiles : p h.files) : p (c.downloadThrough connector target h).2.files := by
  have hstill := Executor.ofConnector_still connector c.services.http none h
  unfold downloadThrough
  split
  next hrun =>
    rw [hrun] at hstill
    exact hstill.files ▸ hfiles
  next e h₁ hrun =>
    rw [hrun] at hstill
    have hfiles₁ : p h₁.files := hstill.files ▸ hfiles
    have hdownload := Service.download_leads connector [] e h₁
    split
    next h₂ hrun =>
      rw [hrun] at hdownload
      have hkept : h₂.files = h₁.files := hdownload
      exact hkept ▸ hfiles₁
    next body _ h₂ hrun =>
      rw [hrun] at hdownload
      have hkept : h₂.files = h₁.files := hdownload.1
      have hfiles₂ : p h₂.files := hkept ▸ hfiles₁
      exact receive_endures hp body hfiles₂

theorem copyLocal_endures (hp : Endures target p) (a : Address) {h : Host} (hfiles : p h.files) :
    p (copyLocal a target h).2.files := by
  have hmade := hp.made h.files hfiles
  unfold copyLocal
  dsimp only
  split
  next hmake =>
    rw [hmake] at hmade
    exact hmade
  next hmake =>
    rw [hmake] at hmade
    split
    next => exact hmade
    next hcopy =>
      obtain ⟨content, _, hwrite⟩ := Files.copy_eq_ok hcopy
      exact hp.written _ _ _ hmade hwrite

theorem downloadObject_endures (hp : Endures target p) (c : ModelCache) (r : Registration)
    (url : Text) (a : Address) {h : Host} (hfiles : p h.files) :
    p (c.downloadObject r url a target h).2.files := by
  unfold downloadObject
  split
  next => exact hfiles
  next name _ =>
    split
    next => exact hfiles
    next d _ =>
      have hstill := Still.build d h
      split
      next hbuild =>
        rw [hbuild] at hstill
        exact hstill.files ▸ hfiles
      next signer h₁ hbuild =>
        rw [hbuild] at hstill
        have hfiles₁ : p h₁.files := hstill.files ▸ hfiles
        exact ObjectStorage.download_endures hp
          (ObjectStorage.ofSettings signer r.storageEndpoint c.services.storage) name hfiles₁

theorem fetch_endures [HostEncoder] (hp : Endures target p) (c : ModelCache) (r : Registration) {h : Host}
    (hfiles : p h.files) : p (c.fetch r target h).2.files := by
  unfold fetch
  split
  next connector _ => exact downloadThrough_endures hp c connector hfiles
  next => exact hfiles
  next => exact hfiles
  next url _ _ _ =>
    split
    next => exact hfiles
    next a _ =>
      split
      next => exact downloadObject_endures hp c r url a hfiles
      next =>
        split
        next => exact copyLocal_endures hp a hfiles
        next =>
          split
          next => exact get_endures hp c url hfiles
          next => exact hfiles

end ModelCache

namespace Files

theorem writeChunks_endures {folder : Path}
    (hp : ∀ number, Endures (chunkPath folder number) p) (chunks : List Bytes) :
    ∀ number t, p t → p (writeChunks folder number t chunks).2 := by
  induction chunks with
  | nil => exact fun _ _ ht => ht
  | cons chunk rest ih =>
      intro number t ht
      rw [writeChunks]
      split
      next => exact ht
      next t' hwrite => exact ih (number + 1) t' ((hp number).written t t' chunk ht hwrite)

theorem chunkPath_parent (folder : Path) (number : Nat) : (chunkPath folder number).parent = folder := by
  rw [chunkPath_eq, Path.parent, List.dropLast_concat]

theorem split_endures {folder : Path} (hp : ∀ number, Endures (chunkPath folder number) p)
    (source : Path) (size : Int) {t : Tree} (ht : p t) : p (split source folder size t).2 := by
  have hmade := (hp 0).made t ht
  rw [chunkPath_parent] at hmade
  unfold split
  split
  next => exact ht
  next =>
    split
    next hmake =>
      rw [hmake] at hmade
      exact hmade
    next t' hmake =>
      rw [hmake] at hmade
      split
      next => exact hmade
      next => exact writeChunks_endures hp _ 0 t' hmade

end Files

end RemoteModel
