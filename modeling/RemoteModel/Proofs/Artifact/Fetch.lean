import RemoteModel.Artifact.Source
import RemoteModel.Proofs.Calls.Executor
import RemoteModel.Proofs.Files.Staged

/-!
Fetching an archive. Whatever the source, a fetch that fails has at most begun to stage the archive,
and one that succeeds has staged just what the source gave.
-/

namespace RemoteModel

open RemoteModel.Tree Host

/-- What the source of a registration gave between two hosts: the whole body of the next reply, the
pieces of the last delivery that was asked for, or what was in a file. -/
inductive Gave (r : Registration) (target : Path) (h h' : Host) : Bytes → Prop
  | byConnector {connector : Connector} {e : Exchange} {a : Answer} :
      r.connector = some connector → h.exchanges = e :: h'.exchanges → e.reply = .ok a →
      200 ≤ a.status → a.status < 300 → a.body.fault = none → Gave r target h h' a.body.rest
  | byWeb {url : Text} {address : Address} {e : Exchange} {a : Answer} :
      r.connector = none → r.url = some url → Address.parse url = .ok address →
      address.scheme = Text.ofString "http" ∨ address.scheme = Text.ofString "https" →
      h.exchanges = e :: h'.exchanges → e.reply = .ok a →
      ¬(400 ≤ a.status ∧ a.status < 600) → a.body.fault = none → Gave r target h h' a.body.rest
  | byStorage {url : Text} {address : Address} {asked : List (Except Failure Delivery)}
      {d : Delivery} :
      r.connector = none → r.url = some url → Address.parse url = .ok address →
      address.scheme = ModelCache.storageScheme → h.deliveries = asked ++ .ok d :: h'.deliveries →
      d.failure = none → Gave r target h h' d.pieces.flatten
  | bySilentStorage {url : Text} {address : Address} :
      r.connector = none → r.url = some url → Address.parse url = .ok address →
      address.scheme = ModelCache.storageScheme → h'.deliveries = [] → Gave r target h h' []
  | byFile {url : Text} {address : Address} {content : Bytes} :
      r.connector = none → r.url = some url → Address.parse url = .ok address →
      address.scheme = Text.ofString "file" →
      (Files.makeFolders target.parent h.files).2.find
        (Path.ofText (Percent.decode address.path)) = .ok (.file content) →
      Gave r target h h' content

theorem Gave.transfer {r : Registration} {target : Path} {h h' k k' : Host} {bytes : Bytes}
    (hgave : Gave r target h h' bytes) (hfiles : k.files = h.files)
    (hexchanges : k.exchanges = h.exchanges) (hdeliveries : k.deliveries = h.deliveries)
    (hexchanges' : k'.exchanges = h'.exchanges) (hdeliveries' : k'.deliveries = h'.deliveries) :
    Gave r target k k' bytes := by
  cases hgave with
  | byConnector hconnector hnext hreply hleast hmost hwhole =>
      rw [← hexchanges, ← hexchanges'] at hnext
      exact .byConnector hconnector hnext hreply hleast hmost hwhole
  | byWeb hconnector hurl hparse hscheme hnext hreply hstatus hwhole =>
      rw [← hexchanges, ← hexchanges'] at hnext
      exact .byWeb hconnector hurl hparse hscheme hnext hreply hstatus hwhole
  | byStorage hconnector hurl hparse hscheme hnext hfailure =>
      rw [← hdeliveries, ← hdeliveries'] at hnext
      exact .byStorage hconnector hurl hparse hscheme hnext hfailure
  | bySilentStorage hconnector hurl hparse hscheme hnone =>
      rw [← hdeliveries'] at hnone
      exact .bySilentStorage hconnector hurl hparse hscheme hnone
  | byFile hconnector hurl hparse hscheme hfound =>
      rw [← hfiles] at hfound
      exact .byFile hconnector hurl hparse hscheme hfound

def Begun (target : Path) (h h' : Host) : Prop := ∃ found, Staged h.files target found h'.files

def Landed (target : Path) (h : Host) (bytes : Bytes) (h' : Host) : Prop :=
  Staged h.files target (some bytes) h'.files

theorem begun_of_files {target : Path} {h h' : Host} (hfiles : h'.files = h.files) :
    Begun target h h' :=
  ⟨none, hfiles ▸ .untouched h.files target⟩

namespace ModelCache

variable {target : Path}

theorem receive_leads {σ : Type} [OnWire σ] (source : σ) {h : Host}
    (hground : h.files.Grounds target.parent) :
    Leads (Begun target h) (fun _ h' => Landed target h (OnWire.wire source).rest h' ∧
      (OnWire.wire source).fault = none ∧ h'.exchanges = h.exchanges)
      (receive source target h) := by
  have hmade : Staged h.files target none (Files.makeFolders target.parent h.files).2 :=
    .made hground
  unfold receive
  split
  next f files hmake =>
    rw [hmake] at hmade
    exact ⟨none, hmade⟩
  next files hmake =>
    rw [hmake] at hmade
    have hdrain := OnWire.drain_ok (show 0 < blockSize by decide) source
    dsimp only
    cases hread : ByteSource.drain blockSize source with
    | mk bytes rest =>
        obtain ⟨result, left⟩ := rest
        rw [hread] at hdrain
        dsimp only
        split
        next => exact ⟨none, hmade⟩
        next written hwrite =>
          have hstaged := hmade.write hwrite
          cases result with
          | error => exact ⟨some bytes, hstaged⟩
          | ok =>
              obtain ⟨hwhole, hbytes⟩ := hdrain rfl
              exact ⟨hbytes ▸ hstaged, hwhole, rfl⟩

theorem not_refused {a : Answer} {url : Text} (h : refusal? a url = none) :
    ¬(400 ≤ a.status ∧ a.status < 600) := by
  intro hstatus
  simp [refusal?, hstatus] at h

theorem get_leads [HostEncoder] (c : ModelCache) (url : Text) {h : Host}
    (hground : h.files.Grounds target.parent) :
    Leads (Begun target h) (fun _ h' => ∃ e a, h.exchanges = e :: h'.exchanges ∧
      e.reply = .ok a ∧ ¬(400 ≤ a.status ∧ a.status < 600) ∧ a.body.fault = none ∧
      Landed target h a.body.rest h') (c.get url target h) := by
  unfold get
  split
  next => exact begun_of_files rfl
  next r _ =>
    have hfiles := exchange_files c.session r true connectTimeout c.layout.downloadTimeout h
    split
    next hrun =>
      rw [hrun] at hfiles
      exact begun_of_files hfiles
    next a h' hrun =>
      rw [hrun] at hfiles
      obtain ⟨⟨e, hexchanges, hreply⟩, _⟩ := exchange_eq_ok hrun
      split
      next => exact begun_of_files hfiles
      next hstatus =>
        have hfiles' : h'.files = h.files := hfiles
        have hground' : h'.files.Grounds target.parent := by rwa [hfiles']
        have hreceived := receive_leads a.body hground'
        unfold Begun Landed at hreceived
        rw [hfiles'] at hreceived
        refine (hreceived.mapError _).mono (fun _ hbegun => hbegun) ?_
        rintro _ h'' ⟨hstaged, hwhole, hrest⟩
        exact ⟨e, a, hrest ▸ hexchanges, hreply, not_refused hstatus, hwhole, hstaged⟩

theorem downloadThrough_leads [HostEncoder] (c : ModelCache) (connector : Connector) {h : Host}
    (hground : h.files.Grounds target.parent) :
    Leads (Begun target h) (fun _ h' => ∃ e a, h.exchanges = e :: h'.exchanges ∧
      e.reply = .ok a ∧ 200 ≤ a.status ∧ a.status < 300 ∧ a.body.fault = none ∧
      Landed target h a.body.rest h') (c.downloadThrough connector target h) := by
  have hstill := Executor.ofConnector_still connector c.services.http none h
  unfold downloadThrough
  split
  next hrun =>
    rw [hrun] at hstill
    exact begun_of_files hstill.files
  next e h₁ hrun =>
    rw [hrun] at hstill
    have hdownload := Service.download_leads connector [] e h₁
    split
    next hrun =>
      rw [hrun] at hdownload
      exact begun_of_files (Eq.trans hdownload hstill.files)
    next body e' h₂ hrun =>
      rw [hrun] at hdownload
      obtain ⟨hkept, ex, a, hexchanges, hreply, hleast, hmost, hwire⟩ := hdownload
      have hfiles : h₂.files = h.files := hkept.trans hstill.files
      have hground' : h₂.files.Grounds target.parent := by rwa [hfiles]
      have hreceived := receive_leads body hground'
      unfold Begun Landed at hreceived
      rw [hfiles, hwire] at hreceived
      refine (hreceived.mapError _).mono (fun _ hbegun => hbegun) ?_
      rintro _ h₃ ⟨hstaged, hwhole, hrest⟩
      refine ⟨ex, a, ?_, hreply, hleast, hmost, hwhole, hstaged⟩
      rw [hrest, ← hstill.exchanges]
      exact hexchanges

theorem copyLocal_leads (a : Address) {h : Host} (hground : h.files.Grounds target.parent) :
    Leads (Begun target h) (fun _ h' => ∃ content,
      (Files.makeFolders target.parent h.files).2.find (Path.ofText (Percent.decode a.path)) =
        .ok (.file content) ∧ Landed target h content h') (copyLocal a target h) := by
  have hmade : Staged h.files target none (Files.makeFolders target.parent h.files).2 :=
    .made hground
  unfold copyLocal
  dsimp only
  split
  next hmake =>
    rw [hmake] at hmade
    exact ⟨none, hmade⟩
  next files hmake =>
    rw [hmake] at hmade
    split
    next => exact ⟨none, hmade⟩
    next written hcopy =>
      obtain ⟨content, hfound, hwrite⟩ := Files.copy_eq_ok hcopy
      refine ⟨content, ?_, hmade.write hwrite⟩
      rw [hmake]
      exact hfound

end ModelCache

namespace ObjectStorage

variable {target : Path}

theorem connect_still (s : ObjectStorage) (h : Host) : Still h (connect (s, h)).2.2 := by
  unfold connect
  dsimp only
  split
  next => exact .refl h
  next =>
    have hgot := Still.get s.signer h
    split
    next hrun => rwa [hrun] at hgot
    next hrun =>
      rw [hrun] at hgot
      exact hgot.trans ⟨rfl, rfl, rfl, rfl, rfl⟩

def Asked (target : Path) (h : Host) (s : ObjectStorage × Host) : Prop :=
  Begun target h s.2 ∧ ∃ asked, h.deliveries = asked ++ s.2.deliveries

def Got (target : Path) (h : Host) (s : ObjectStorage × Host) : Prop :=
  (∃ asked d, h.deliveries = asked ++ .ok d :: s.2.deliveries ∧ d.failure = none ∧
    Landed target h d.pieces.flatten s.2) ∨ s.2.deliveries = [] ∧ Landed target h [] s.2

theorem store_leads {h h' : Host} (d : Delivery) (hbegun : Begun target h h') :
    Leads (fun s => Begun target h s ∧ s.deliveries = h'.deliveries)
      (fun _ s => Landed target h d.pieces.flatten s ∧ s.deliveries = h'.deliveries ∧
        d.failure = none) (store target d h') := by
  obtain ⟨found, hstaged⟩ := hbegun
  unfold store
  split
  next => exact ⟨⟨found, hstaged⟩, rfl⟩
  next files hwrite =>
    have hlanded := hstaged.write hwrite
    cases hfailure : d.failure with
    | some f => exact ⟨⟨_, hlanded⟩, rfl⟩
    | none => exact ⟨hlanded, rfl, rfl⟩

theorem fetch_cases (name : ObjectName) (h : Host) :
    (h.fetch name).2.files = h.files ∧
      (h.deliveries = (h.fetch name).1 :: (h.fetch name).2.deliveries ∨
        (h.fetch name).1 = .ok ⟨[], none⟩ ∧ (h.fetch name).2.deliveries = []) := by
  unfold Host.fetch
  dsimp only
  split
  next hnone => exact ⟨rfl, .inr ⟨rfl, hnone⟩⟩
  next hsome => exact ⟨rfl, .inl hsome⟩

theorem deliver_leads (name : ObjectName) {h : Host} {s : ObjectStorage × Host}
    (hasked : Asked target h s) :
    Leads (Asked target h) (fun _ s' => Got target h s') (deliver name target s) := by
  obtain ⟨storage, h₁⟩ := s
  obtain ⟨⟨found, hstaged⟩, asked, hdeliveries⟩ := hasked
  have hstill := connect_still storage h₁
  unfold deliver
  split
  next f s' hrun =>
    rw [hrun] at hstill
    exact ⟨⟨found, hstill.files ▸ hstaged⟩, asked, hstill.deliveries ▸ hdeliveries⟩
  next s' h₂ hrun =>
    rw [hrun] at hstill
    have hdeliveries₂ : h.deliveries = asked ++ h₂.deliveries := hstill.deliveries ▸ hdeliveries
    have hstaged₂ : Staged h.files target found h₂.files := hstill.files ▸ hstaged
    obtain ⟨hfiles, hgiven⟩ := fetch_cases name h₂
    have hasked₃ : ∃ asked, h.deliveries = asked ++ (h₂.fetch name).2.deliveries := by
      rcases hgiven with hnext | ⟨_, hnone⟩
      · exact ⟨asked ++ [(h₂.fetch name).1], by
          rw [hdeliveries₂, hnext, List.append_assoc, List.singleton_append]⟩
      · exact ⟨h.deliveries, by rw [hnone, List.append_nil]⟩
    have hbegun₃ : Begun target h (h₂.fetch name).2 := ⟨found, hfiles ▸ hstaged₂⟩
    split
    next f h₃ hfetch =>
      rw [hfetch] at hasked₃ hbegun₃
      exact ⟨hbegun₃, hasked₃⟩
    next d h₃ hfetch =>
      rw [hfetch] at hasked₃ hbegun₃ hgiven
      have hstored := store_leads d hbegun₃
      cases hstore : store target d h₃ with
      | mk result h₄ =>
          rw [hstore] at hstored
          cases result with
          | error =>
              obtain ⟨hbegun, hkept⟩ := hstored
              exact ⟨hbegun, hkept ▸ hasked₃⟩
          | ok =>
              obtain ⟨hlanded, hkept, hfailure⟩ := hstored
              rcases hgiven with hnext | ⟨hplain, hnone⟩
              · refine .inl ⟨asked, d, ?_, hfailure, hlanded⟩
                rw [hdeliveries₂, hnext, hkept]
              · obtain rfl := Except.ok.inj hplain
                exact .inr ⟨hkept.trans hnone, hlanded⟩

theorem attempt_leads (name : ObjectName) {h : Host} {s : ObjectStorage × Host}
    (hasked : Asked target h s) :
    Leads (Asked target h) (fun _ s' => Got target h s') (attempt name target s) := by
  have hrun := Breaker.run_leads (Asked target h) (Asked target h) (fun _ s' => Got target h s')
    s.1.breaker (.own .artifactDownload) breakerName Classifier.objectStorage.isRetriable
    Classifier.objectStorage.notes (deliver name target)
    ⟨fun _ _ h => h, fun _ _ h => h⟩ ⟨fun _ _ h => h, fun _ _ h => h⟩
    (fun _ => ⟨fun _ _ h => h, fun _ _ h => h⟩) (fun _ h => h)
    (fun _ hs => deliver_leads name hs) hasked
  unfold attempt
  dsimp only
  generalize s.1.breaker.run (.own .artifactDownload) breakerName
    Classifier.objectStorage.isRetriable Classifier.objectStorage.notes (deliver name target) s
    = r at hrun ⊢
  obtain ⟨result, breaker, storage, h'⟩ := r
  cases result <;> exact hrun

theorem download_leads (s : ObjectStorage) (name : ObjectName) {h : Host}
    (hground : h.files.Grounds target.parent) :
    Leads (fun s => Begun target h s.2) (fun _ s => Got target h s) (download name target s h) := by
  have hmade : Staged h.files target none (Files.makeFolders target.parent h.files).2 :=
    .made hground
  unfold download
  split
  next hmake =>
    rw [hmake] at hmade
    exact ⟨none, hmade⟩
  next files hmake =>
    rw [hmake] at hmade
    have hrun := Retry.run_leads (Asked target h) (fun _ s' => Got target h s') s.policy
      .objectStorage voice (attempt name target)
      ⟨fun _ _ h => h, fun _ _ h => h⟩ (fun _ hs => attempt_leads name hs)
      (s := (s, HasJournal.log [s.announcement name] { h with files })) ⟨⟨none, hmade⟩, [], rfl⟩
    dsimp only
    split
    next hend =>
      rw [hend] at hrun
      exact hrun
    next hend =>
      rw [hend] at hrun
      exact hrun.1

end ObjectStorage

namespace ModelCache

variable {target : Path}

theorem downloadObject_leads (c : ModelCache) (r : Registration) (url : Text) (a : Address)
    {h : Host} (hground : h.files.Grounds target.parent) :
    Leads (Begun target h) (fun _ h' => (∃ asked d, h.deliveries = asked ++ .ok d :: h'.deliveries ∧
        d.failure = none ∧ Landed target h d.pieces.flatten h') ∨
        h'.deliveries = [] ∧ Landed target h [] h') (c.downloadObject r url a target h) := by
  unfold downloadObject
  split
  next => exact begun_of_files rfl
  next name _ =>
    split
    next => exact begun_of_files rfl
    next d _ =>
      have hstill := Still.build d h
      split
      next hbuild =>
        rw [hbuild] at hstill
        exact begun_of_files hstill.files
      next signer h₁ hbuild =>
        rw [hbuild] at hstill
        have hfiles : h₁.files = h.files := hstill.files
        have hground' : h₁.files.Grounds target.parent := by rwa [hfiles]
        have hdownload := ObjectStorage.download_leads
          (ObjectStorage.ofSettings signer r.storageEndpoint c.services.storage) name hground'
        unfold ObjectStorage.Got Begun Landed at hdownload
        rw [hfiles, show h₁.deliveries = h.deliveries from hstill.deliveries] at hdownload
        dsimp only
        generalize ObjectStorage.download name target _ h₁ = end' at hdownload ⊢
        obtain ⟨result, storage, h₂⟩ := end'
        cases result <;> exact hdownload

theorem fetch_leads [HostEncoder] (c : ModelCache) (r : Registration) {h : Host}
    (hground : h.files.Grounds target.parent) :
    Leads (Begun target h)
      (fun _ h' => ∃ archive, Gave r target h h' archive ∧ Landed target h archive h')
      (c.fetch r target h) := by
  unfold fetch
  split
  next connector hconnector =>
    refine (c.downloadThrough_leads connector hground).mono (fun _ hbegun => hbegun) ?_
    rintro _ h' ⟨e, a, hexchanges, hreply, hleast, hmost, hwhole, hlanded⟩
    exact ⟨_, .byConnector hconnector hexchanges hreply hleast hmost hwhole, hlanded⟩
  next => exact begun_of_files rfl
  next => exact begun_of_files rfl
  next url _ hconnector hurl =>
    split
    next => exact begun_of_files rfl
    next a hparse =>
      split
      next hscheme =>
        refine (c.downloadObject_leads r url a hground).mono (fun _ hbegun => hbegun) ?_
        rintro _ h' (⟨asked, d, hdeliveries, hfailure, hlanded⟩ | ⟨hnone, hlanded⟩)
        · exact ⟨_, .byStorage hconnector hurl hparse hscheme hdeliveries hfailure, hlanded⟩
        · exact ⟨_, .bySilentStorage hconnector hurl hparse hscheme hnone, hlanded⟩
      next =>
        split
        next hscheme =>
          refine (copyLocal_leads a hground).mono (fun _ hbegun => hbegun) ?_
          rintro _ h' ⟨content, hfound, hlanded⟩
          exact ⟨_, .byFile hconnector hurl hparse hscheme hfound, hlanded⟩
        next =>
          split
          next hscheme =>
            have hget := c.get_leads url hground
            unfold download
            dsimp only
            refine (hget.mapError _).mono (fun _ hbegun => hbegun) ?_
            rintro _ h' ⟨e, a', hexchanges, hreply, hstatus, hwhole, hlanded⟩
            refine ⟨_, .byWeb hconnector hurl hparse ?_ hexchanges hreply hstatus hwhole, hlanded⟩
            simpa using hscheme
          next => exact begun_of_files rfl

end ModelCache

end RemoteModel
