import RemoteModel.Proofs.Artifact.Registering
import RemoteModel.Proofs.Auth.Settings
import RemoteModel.Proofs.Http.Address
import RemoteModel.Proofs.ObjectStorage.Attempts

/-!
Which objects registrations ask for. An address of object storage spells a namespace, a bucket and an
object between slashes, but only up to the first question mark or hash: what stands behind it is dropped,
and so an object whose name has one is asked for under a shorter name.
-/

namespace RemoteModel

open Address

/-- A text that spells the name of an object: three parts, none of them empty. -/
structure Spells (t : Text) (name : ObjectName) : Prop where
  parts : t.splitOn (.scalar '/') = [name.space, name.bucket, name.object]
  space : name.space ≠ []
  bucket : name.bucket ≠ []
  object : name.object ≠ []

theorem Text.splitOn_append_cons {sep : Rune} {front : Text} (hfront : sep ∉ front) (rest : Text) :
    (front ++ sep :: rest).splitOn sep = front :: rest.splitOn sep := by
  rw [splitOn_eq_splitOn, splitOn_eq_splitOn]
  exact List.splitOn_append_cons_self_of_not_mem hfront rest

theorem Text.splitOn_of_not_mem {sep : Rune} {t : Text} (h : sep ∉ t) : t.splitOn sep = [t] := by
  rw [splitOn_eq_splitOn]
  exact List.splitOn_eq_singleton h

theorem Address.not_mem_beforeSlash (t : Text) : .scalar '/' ∉ beforeSlash t := by
  intro hslash
  have hnot := List.mem_takeWhile_imp hslash
  simp at hnot

theorem Address.fromSlash_cases (t : Text) :
    fromSlash t = [] ∨ ∃ rest, fromSlash t = .scalar '/' :: rest := by
  unfold fromSlash
  induction t with
  | nil => exact .inl rfl
  | cons r t ih =>
      by_cases hr : r = .scalar '/'
      · exact .inr ⟨t, by simp [hr]⟩
      · rwa [List.dropWhile_cons_of_pos (by simpa using hr)]

theorem Spells.eq_join {t : Text} {name : ObjectName} (h : Spells t name) :
    t = name.space ++ .scalar '/' :: (name.bucket ++ .scalar '/' :: name.object) := by
  have hjoin : List.intercalate [.scalar '/'] (List.splitOn (.scalar '/') t) = t :=
    List.intercalate_splitOn _
  rw [← Text.splitOn_eq_splitOn, h.parts] at hjoin
  simpa using hjoin.symm

theorem Address.named_append {front : Text} (hfront : ∀ r ∈ front, isMark r = false) (t : Text) :
    named (front ++ t) = front ++ named t :=
  List.takeWhile_append_of_pos fun r hr => by rw [hfront r hr]; rfl

/-- Of a name that an address spells the object is cut at its first mark, and the rest of the name is
kept. -/
theorem Spells.named_iff {t : Text} {name other : ObjectName} (h : Spells t name)
    (hspace : ∀ r ∈ name.space, isMark r = false) (hbucket : ∀ r ∈ name.bucket, isMark r = false) :
    Spells (named t) other ↔
      other = { name with object := named name.object } ∧ named name.object ≠ [] := by
  have hwhole (part : Text) (hpart : part ∈ [name.space, name.bucket, name.object]) :
      .scalar '/' ∉ part := by
    rw [← h.parts] at hpart
    exact Text.not_mem_of_mem_splitOn hpart
  have hobject : .scalar '/' ∉ named name.object := fun hslash =>
    hwhole name.object (by simp) (List.takeWhile_subset _ hslash)
  have hslash (u : Text) : named (.scalar '/' :: u) = .scalar '/' :: named u := rfl
  have hparts : (named t).splitOn (.scalar '/') = [name.space, name.bucket, named name.object] := by
    rw [h.eq_join, named_append hspace, hslash, named_append hbucket, hslash,
      Text.splitOn_append_cons (hwhole _ (by simp)), Text.splitOn_append_cons (hwhole _ (by simp)),
      Text.splitOn_of_not_mem hobject]
  constructor
  · intro hother
    have hsame := hother.parts.symm.trans hparts
    simp only [List.cons.injEq, and_true] at hsame
    obtain ⟨space, bucket, object⟩ := other
    obtain ⟨rfl, rfl, rfl⟩ := hsame
    exact ⟨rfl, hother.object⟩
  · rintro ⟨rfl, hleft⟩
    exact ⟨hparts, h.space, h.bucket, hleft⟩

/-- Hosts that differ in the journal and the files only. -/
def Host.Filed (h h' : Host) : Prop := ∃ journal files, h' = { h with journal, files }

namespace Host.Filed

theorem refl (h : Host) : Filed h h := ⟨_, _, rfl⟩

theorem trans {h h' h'' : Host} (hfirst : Filed h h') (hsecond : Filed h' h'') : Filed h h'' := by
  obtain ⟨_, _, rfl⟩ := hfirst
  obtain ⟨journal, files, rfl⟩ := hsecond
  exact ⟨journal, files, rfl⟩

end Host.Filed

namespace ModelCache

theorem objectOf?_eq_some_iff {a : Address} {name : ObjectName} : objectOf? a = some name ↔
    a.authority = name.space ∧
      (∃ head, a.path.splitOn (.scalar '/') = [head, name.bucket, name.object]) ∧
      name.space ≠ [] ∧ name.bucket ≠ [] ∧ name.object ≠ [] := by
  unfold objectOf?
  split
  next space spaces head bucket buckets object objects hauthority hpath =>
    constructor
    · rintro ⟨⟩
      exact ⟨hauthority, ⟨head, hpath⟩, nofun, nofun, nofun⟩
    · rintro ⟨hspace, ⟨head', hparts⟩, -⟩
      obtain ⟨space', bucket', object'⟩ := name
      have hsame := hpath.symm.trans hparts
      simp only [List.cons.injEq, and_true] at hsame
      obtain ⟨-, rfl, rfl⟩ := hsame
      obtain rfl : space :: spaces = space' := hauthority.symm.trans hspace
      rfl
  next hnone =>
    refine iff_of_false nofun ?_
    rintro ⟨hspace, ⟨head, hparts⟩, hone, htwo, hthree⟩
    obtain ⟨_, _, hspace'⟩ := List.exists_cons_of_ne_nil hone
    obtain ⟨_, _, hbucket'⟩ := List.exists_cons_of_ne_nil htwo
    obtain ⟨_, _, hobject'⟩ := List.exists_cons_of_ne_nil hthree
    rw [hbucket', hobject'] at hparts
    exact hnone _ _ _ _ _ _ _ (hspace.trans hspace') hparts

/-- An address names the object that authority and path spell together. -/
theorem objectOf?_iff_spells {a : Address} {t : Text} {name : ObjectName}
    (hauthority : a.authority = beforeSlash t) (hpath : a.path = fromSlash t) :
    objectOf? a = some name ↔ Spells t name := by
  have hwhole := beforeSlash_append_fromSlash t
  have hfront := not_mem_beforeSlash t
  rw [objectOf?_eq_some_iff, hauthority, hpath]
  rcases fromSlash_cases t with hend | ⟨rest, hslash⟩
  · rw [hend, List.append_nil] at hwhole
    rw [hwhole] at hfront
    rw [hend]
    refine iff_of_false ?_ fun h => ?_
    · rintro ⟨-, ⟨_, hparts⟩, -⟩
      cases hparts
    · have hparts := h.parts
      rw [Text.splitOn_of_not_mem hfront] at hparts
      cases hparts
  · have hsplit : t.splitOn (.scalar '/') = beforeSlash t :: Text.splitOn (.scalar '/') rest := by
      rw [← Text.splitOn_append_cons hfront, ← hslash, hwhole]
    have hpath' : (fromSlash t).splitOn (.scalar '/') = [] :: Text.splitOn (.scalar '/') rest := by
      rw [hslash]
      exact @Text.splitOn_append_cons _ [] nofun rest
    rw [hpath']
    constructor
    · rintro ⟨hspace, ⟨_, hparts⟩, hone, htwo, hthree⟩
      refine ⟨?_, hone, htwo, hthree⟩
      rw [hsplit, hspace, (List.cons.inj hparts).2]
    · rintro ⟨hparts, hone, htwo, hthree⟩
      rw [hsplit] at hparts
      obtain ⟨hspace, hrest⟩ := List.cons.inj hparts
      exact ⟨hspace, ⟨[], by rw [hrest]⟩, hone, htwo, hthree⟩

open Host (Filed)

theorem discard_filed (p : Path) (h : Host) : Filed h (discard p h) := ⟨_, _, rfl⟩

theorem splitArchive_filed (c : ModelCache) (archive chunks : Path) (h : Host) :
    Filed h (c.splitArchive archive chunks h).2 := by
  unfold splitArchive
  split
  next => exact ⟨_, _, rfl⟩
  next =>
    dsimp only
    split <;> exact ⟨_, _, rfl⟩

theorem accept_filed (c : ModelCache) (r : Registration) (task : Text) (archive chunks : Path)
    (h : Host) : Filed h (c.accept r task archive chunks h).2 := by
  unfold accept
  dsimp only
  split
  next => exact .refl h
  next =>
    split
    next => exact ⟨_, _, rfl⟩
    next =>
      have hsplit := c.splitArchive_filed archive chunks h
      split
      next hrun => rwa [hrun] at hsplit
      next hrun => rwa [hrun] at hsplit

/-- Behind the fetch a registration works on files only, and an error of the fetch is its own. -/
theorem register_of_fetch [HostEncoder] (c : ModelCache) (r : Registration) (task : Text)
    (version : Option Text) (h : Host) {result : Except Failure Unit} {h' : Host}
    (hfetch : c.fetch r (archivePath (c.stagingFolder r task version))
      (HasJournal.log [announcement r task] h) = (result, h')) :
    Filed h' (c.register r task version h).2 ∧
      ∀ f, result = .error f → (c.register r task version h).1 = .error f := by
  unfold register
  dsimp only
  rw [hfetch]
  cases result with
  | error f =>
      refine ⟨discard_filed _ h', ?_⟩
      rintro _ ⟨⟩
      rfl
  | ok =>
      refine ⟨?_, nofun⟩
      have haccepted := c.accept_filed r task (archivePath (c.stagingFolder r task version))
        (chunksPath (c.stagingFolder r task version)) h'
      exact haccepted.trans (discard_filed _ _)

theorem downloadObject_requests (c : ModelCache) {r : Registration} (url : Text) {a : Address}
    {name : ObjectName} {d : AuthDescriptor} (target : Path) (h : Host)
    (hname : objectOf? a = some name)
    (hauth : AuthDescriptor.ofSettings (some r.authSettings) = .ok d) :
    ∃ signer times, LazySigner.ofDescriptor d = .ok signer ∧
      (c.downloadObject r url a target h).2.fetched = h.fetched ++ List.replicate times name ∧
      (1 ≤ times ↔ (Files.makeFolders target.parent h.files).1 = .ok () ∧
        ∃ found, (signer.get { h with
          files := (Files.makeFolders target.parent h.files).2 }).1 = .ok found) := by
  obtain ⟨signer, hsigner, -⟩ := LazySigner.waits_of_ofSettings hauth
  have hbuild : LazySigner.build d h =
      (.ok signer, HasJournal.log [LazySigner.announcement (.str d.type.name)] h) :=
    Prod.ext hsigner rfl
  obtain ⟨times, hfetched, hasked⟩ := ObjectStorage.download_requests
    (.ofSettings signer r.storageEndpoint c.services.storage) name target
    (HasJournal.log [LazySigner.announcement (.str d.type.name)] h) rfl rfl
  refine ⟨signer, times, hsigner, ?_, ?_⟩
  · unfold downloadObject
    rw [hname]
    dsimp only
    rw [hauth]
    dsimp only
    rw [hbuild]
    exact hfetched
  · have hsame := signer.get_log [LazySigner.announcement (.str d.type.name)]
      { h with files := (Files.makeFolders target.parent h.files).2 }
    rw [← hsame]
    exact hasked

/-- An address of object storage in plain characters whose namespace has no brackets. -/
structure Addressed (t : Text) : Prop where
  plain : ∀ x ∈ t, IsPlain x
  opens : .scalar '[' ∉ beforeSlash (named t)
  closes : .scalar ']' ∉ beforeSlash (named t)

def storageUrl (t : Text) : Text := storageScheme ++ "://" ++ t

theorem Addressed.parse {t : Text} (h : Addressed t) : ∃ a, Address.parse (storageUrl t) = .ok a ∧
    a.scheme = storageScheme ∧ ∀ name, objectOf? a = some name ↔ Spells (named t) name := by
  obtain ⟨query, fragment, hparse⟩ := @Address.parse_of_plain (.scalar 'o') (Text.ofString "ci-os") t
    (by decide) (by decide) (by decide) h.plain h.opens h.closes
  have hlower : Text.lowerAscii (.scalar 'o' :: Text.ofString "ci-os") = storageScheme := by decide
  exact ⟨_, hparse, hlower, fun name => objectOf?_iff_spells rfl rfl⟩

/-- What a registration asks object storage for. When what the address names up to the first question mark
or hash is a namespace, a bucket and an object, and the auth fields are valid, every request is for that
object, and there is one if the folders can be made and the signer can be had. Otherwise the address is
refused, before a signer or a client is there. So of an address that spells an object the name is cut at
its first mark: it is the object asked for when the object has no mark. -/
theorem register_requests [HostEncoder] (c : ModelCache) {r : Registration} (task : Text)
    (version : Option Text) (h : Host) {t : Text} (hconnector : r.connector = none)
    (hurl : r.url = some (storageUrl t)) (haddressed : Addressed t) :
    (∀ name d, Spells (named t) name → AuthDescriptor.ofSettings (some r.authSettings) = .ok d →
      ∃ signer times, LazySigner.ofDescriptor d = .ok signer ∧
        (c.register r task version h).2.fetched = h.fetched ++ List.replicate times name ∧
        (1 ≤ times ↔
          (Files.makeFolders (archivePath (c.stagingFolder r task version)).parent h.files).1 =
              .ok () ∧
            ∃ found, (signer.get { h with files := (Files.makeFolders
              (archivePath (c.stagingFolder r task version)).parent h.files).2 }).1 = .ok found)) ∧
      ((∀ name, ¬Spells (named t) name) →
        (c.register r task version h).1 = .error (.storageAddressInvalid (storageUrl t)) ∧
          (c.register r task version h).2.fetched = h.fetched ∧
          (c.register r task version h).2.plans = h.plans ∧
          (c.register r task version h).2.clients = h.clients) ∧
      ∀ name, Spells t name → (∀ x ∈ name.space, isMark x = false) →
        (∀ x ∈ name.bucket, isMark x = false) → ∀ other, Spells (named t) other ↔
          other = { name with object := named name.object } ∧ named name.object ≠ [] := by
  obtain ⟨a, hparse, hscheme, hobject⟩ := haddressed.parse
  have hfetch (target : Path) (h : Host) :
      c.fetch r target h = c.downloadObject r (storageUrl t) a target h := by
    unfold fetch
    split
    next connector hsome => cases hconnector.symm.trans hsome
    next hnone => cases hurl.symm.trans hnone
    next hempty => cases hurl.symm.trans hempty
    next url _ _ hsome =>
      obtain rfl := Option.some.inj (hurl.symm.trans hsome)
      rw [hparse]
      exact if_pos hscheme
  refine ⟨fun name d hspells hauth => ?_, fun hnone => ?_,
    fun name hspells hspace hbucket other => hspells.named_iff hspace hbucket⟩
  · obtain ⟨signer, times, hsigner, hfetched, hasked⟩ := c.downloadObject_requests (storageUrl t)
      (archivePath (c.stagingFolder r task version)) (HasJournal.log [announcement r task] h)
      ((hobject name).mpr hspells) hauth
    obtain ⟨⟨journal, files, hfiled⟩, -⟩ := c.register_of_fetch r task version h (hfetch _ _)
    refine ⟨signer, times, hsigner, ?_, ?_⟩
    · rw [hfiled]
      exact hfetched
    · have hsame := signer.get_log [announcement r task] { h with files := (Files.makeFolders
        (archivePath (c.stagingFolder r task version)).parent h.files).2 }
      rw [← hsame]
      exact hasked
  · have hunnamed : objectOf? a = none := by
      cases hname : objectOf? a with
      | none => rfl
      | some name => exact absurd ((hobject name).mp hname) (hnone name)
    have hrefused : c.fetch r (archivePath (c.stagingFolder r task version))
        (HasJournal.log [announcement r task] h) = (.error (.storageAddressInvalid (storageUrl t)),
          HasJournal.log [announcement r task] h) := by
      rw [hfetch]
      unfold downloadObject
      rw [hunnamed]
    obtain ⟨⟨journal, files, hfiled⟩, hfails⟩ := c.register_of_fetch r task version h hrefused
    refine ⟨hfails _ rfl, ?_⟩
    rw [hfiled]
    exact ⟨rfl, rfl, rfl⟩

def storedRegistration (t : Text) : Registration where
  name := "m"
  version := "1"
  format := some .torchScript
  hash := some smallHash
  url := some (storageUrl t)
  connector := none
  function := .metricsCorrelation
  config := none
  storageEndpoint := none
  auth
    | .authType => some "RESOURCE_PRINCIPAL"
    | _ => none

theorem stored_registration_requests : ∃ times,
    (smallCache.register (storedRegistration "n/b/o") "t" none (Host.start 0)).2.fetched =
      List.replicate times ⟨"n", "b", "o"⟩ ∧ 1 ≤ times := by
  obtain ⟨hrequests, -, -⟩ := register_requests smallCache "t" none (Host.start 0)
    (r := storedRegistration "n/b/o") (t := "n/b/o") rfl rfl
    ⟨by decide +kernel, by decide +kernel, by decide +kernel⟩
  obtain ⟨signer, times, hsigner, hfetched, hasked⟩ := hrequests ⟨"n", "b", "o"⟩
    (.plain .resourcePrincipal) ⟨by decide +kernel, by decide +kernel, by decide +kernel,
      by decide +kernel⟩ (by decide +kernel)
  refine ⟨times, hfetched, hasked.mpr ⟨by decide +kernel, ?_⟩⟩
  cases hsigner
  exact ⟨_, rfl⟩

/-- An object with a mark in its name is not asked for, and an address with a slash behind a mark is not
refused: both times the object before the mark is fetched. -/
theorem marked_object_shortened :
    (¬∀ (c : ModelCache) (r : Registration) (task : Text) (version : Option Text) (h : Host)
      (space bucket object : Text) (d : AuthDescriptor), r.connector = none →
      r.url = some (storageUrl (space ++ "/" ++ bucket ++ "/" ++ object)) →
      (∀ part ∈ [space, bucket, object], part ≠ [] ∧ (∀ x ∈ part, IsPlain x) ∧
        .scalar '/' ∉ part ∧ part.head? ≠ some (.scalar ' ') ∧ part.getLast? ≠ some (.scalar ' ')) →
      (∀ x ∈ space ++ bucket, isMark x = false ∧ x ≠ .scalar '[' ∧ x ≠ .scalar ']') →
      AuthDescriptor.ofSettings (some r.authSettings) = .ok d →
      ∃ times, (c.register r task version h).2.fetched =
        h.fetched ++ List.replicate times ⟨space, bucket, object⟩) ∧
    ¬∀ (c : ModelCache) (r : Registration) (task : Text) (version : Option Text) (h : Host)
      (t : Text), r.connector = none → r.url = some (storageUrl t) → Addressed t →
      (∀ name, ¬Spells t name) → (c.register r task version h).2.fetched = h.fetched := by
  have hfetched (t : Text) (ht : t = "n/b/o#1" ∨ t = "n/b/o#/x") :
      (smallCache.register (storedRegistration t) "t" none (Host.start 0)).2.fetched =
        [⟨"n", "b", "o"⟩] := by
    rcases ht with rfl | rfl <;> decide +kernel
  constructor
  · intro hall
    obtain ⟨times, htimes⟩ := hall smallCache (storedRegistration "n/b/o#1") "t" none (Host.start 0)
      "n" "b" "o#1" (.plain .resourcePrincipal) rfl rfl (by decide +kernel) (by decide +kernel)
      (by decide +kernel)
    rw [hfetched _ (.inl rfl)] at htimes
    have hsame : (⟨"n", "b", "o"⟩ : ObjectName) ∈ List.replicate times ⟨"n", "b", "o#1"⟩ := by
      rw [← List.nil_append (List.replicate times _)]
      exact htimes ▸ List.mem_cons_self
    exact absurd (List.eq_of_mem_replicate hsame) (by decide +kernel)
  · intro hall
    have hnone := hall smallCache (storedRegistration "n/b/o#/x") "t" none (Host.start 0) "n/b/o#/x"
      rfl rfl ⟨by decide +kernel, by decide +kernel, by decide +kernel⟩
      (fun name hname => by
        have hfour : (Text.splitOn (.scalar '/') "n/b/o#/x").length = 4 := by decide +kernel
        cases hfour.symm.trans (congrArg List.length hname.parts))
    rw [hfetched _ (.inr rfl)] at hnone
    cases hnone

end ModelCache

end RemoteModel
