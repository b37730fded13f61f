import RemoteModel.Proofs.Auth.Settings

/-!
Descriptors from two tables of settings. The first table that has a value for a field decides about it, and
what is found for the six fields decides about everything else: whether there is a descriptor, what it holds,
which error there is instead, and that every descriptor has a signer.
-/

namespace RemoteModel

namespace AuthType

theorem name_injective : Function.Injective name := by
  intro a b h
  cases a <;> cases b <;> first | rfl | exact absurd h (by decide)

theorem parse_cases (t : Text) :
    (∃ a, t.trim.upper = name a ∧ parse t = .ok a) ∨
      (∀ a, t.trim.upper ≠ name a) ∧ parse t = .error .authTypeUnknown := by
  unfold parse ofName?
  cases hfind : List.find? (fun a => decide (name a = t.trim.upper))
      [.resourcePrincipal, .instancePrincipal, .userPrincipal] with
  | some a =>
      have hname := List.find?_some hfind
      exact .inl ⟨a, (of_decide_eq_true hname).symm, rfl⟩
  | none =>
      refine .inr ⟨fun a ha => ?_, rfl⟩
      have hother := List.find?_eq_none.mp hfind a (by cases a <;> decide)
      exact hother (decide_eq_true ha.symm)

end AuthType

namespace AuthField

variable {settings parameters credential : Entries Json} {f : AuthField} {v : Json}

theorem name_injective : Function.Injective name := by
  intro f g h
  cases f <;> cases g <;> first | rfl | exact absurd h (by decide)

theorem mem_all (f : AuthField) : f ∈ all := by
  cases f <;> decide

/-- The value of a field in a table; null and the empty text are none. -/
def given (settings : Entries Json) (f : AuthField) : Option Json :=
  (settings.get? f.name).filter fun v => decide (v ≠ .null ∧ v ≠ .str [])

theorem given_eq_some : given settings f = some v ↔
    settings.get? f.name = some v ∧ v ≠ .null ∧ v ≠ .str [] := by
  simp [given, Option.filter_eq_some_iff]

theorem isSome_given (settings : Entries Json) (f : AuthField) :
    (given settings f).isSome = hasSetting settings f := by
  unfold given hasSetting
  split
  next h => simp [h]
  next h => simp [h]
  next h => simp [h]
  next v hnull hempty h =>
    have hfilled : v ≠ .null ∧ v ≠ .str [] := ⟨hnull, hempty⟩
    simp [h, hfilled]

/-- What two tables have for a field: the first one goes before the second. -/
def resolved (parameters credential : Entries Json) (f : AuthField) : Option Json :=
  (given parameters f).or (given credential f)

theorem resolved_filled (h : resolved parameters credential f = some v) : v ≠ .null ∧ v ≠ .str [] := by
  rcases Option.or_eq_some_iff.mp h with hfirst | ⟨-, hsecond⟩
  · exact (given_eq_some.mp hfirst).2
  · exact (given_eq_some.mp hsecond).2

/-- The table of what is found for the fields. -/
def table (found : AuthField → Option Json) : Entries Json :=
  all.filterMap fun f => (found f).map (f.name, ·)

theorem resolveSettings_eq (parameters credential : Entries Json) :
    resolveSettings parameters credential = table (resolved parameters credential) := by
  apply List.filterMap_congr
  intro f _
  rw [← isSome_given, ← isSome_given]
  unfold resolved
  cases hfirst : given parameters f with
  | some v => simp [(given_eq_some.mp hfirst).1]
  | none =>
      cases hsecond : given credential f with
      | some v => simp [(given_eq_some.mp hsecond).1]
      | none => simp

theorem get?_filterMap (found : AuthField → Option Json) (fs : List AuthField) (f : AuthField) :
    Entries.get? (fs.filterMap fun g => (found g).map (g.name, ·)) f.name =
      if f ∈ fs then found f else none := by
  induction fs with
  | nil => simp
  | cons g fs ih =>
      by_cases hsame : g = f
      · subst hsame
        cases hfound : found g with
        | none => simp [hfound, ih]
        | some v => simp [hfound]
      · have hname : g.name ≠ f.name := name_injective.ne hsame
        cases hfound : found g with
        | none => simp [hfound, ih, Ne.symm hsame]
        | some v => simp [hfound, ih, hname, Ne.symm hsame]

theorem get?_table (found : AuthField → Option Json) (f : AuthField) :
    (table found).get? f.name = found f := by
  unfold table
  rw [get?_filterMap, if_pos f.mem_all]

theorem given_table {found : AuthField → Option Json}
    (hfilled : ∀ f v, found f = some v → v ≠ .null ∧ v ≠ .str []) : given (table found) = found := by
  funext f
  ext v
  rw [given_eq_some, get?_table]
  exact and_iff_left_of_imp (hfilled f v)

end AuthField

namespace AuthDescriptor

variable {found : AuthField → Option Json}

/-- The value that is found for the type names it, whatever blanks and cases it is written in. -/
def Names (found : AuthField → Option Json) (type : AuthType) : Prop :=
  ∃ v, found .authType = some v ∧ v.shown.trim.upper = type.name

theorem Names.unique {a b : AuthType} (ha : Names found a) (hb : Names found b) : a = b := by
  obtain ⟨v, hv, hname⟩ := ha
  obtain ⟨w, hw, hname'⟩ := hb
  cases hv.symm.trans hw
  exact AuthType.name_injective (hname.symm.trans hname')

theorem Names.isFound {type : AuthType} (h : Names found type) : found .authType ≠ none := by
  obtain ⟨v, hv, -⟩ := h
  rw [hv]
  exact Option.some_ne_none v

/-- The ways of reading a descriptor from what is found for its fields. -/
inductive Reading (found : AuthField → Option Json) : Except Failure AuthDescriptor → Prop
  | untyped : found .authType = none → Reading found (.error (.authFieldMissing .authType))
  | unknown {v : Json} : found .authType = some v →
      (∀ type, v.shown.trim.upper ≠ AuthType.name type) → Reading found (.error .authTypeUnknown)
  | incomplete {before after : List AuthField} {f : AuthField} : Names found .userPrincipal →
      AuthField.ofUser = before ++ f :: after → (∀ g ∈ before, (found g).isSome = true) →
      found f = none → Reading found (.error (.authFieldMissing f))
  | user {d : AuthDescriptor} : Names found .userPrincipal → d.type = .userPrincipal →
      (∀ f ∈ AuthField.ofUser, found f = some (d.field f)) → Reading found (.ok d)
  | plain {type : AuthType} : Names found type → type ≠ .userPrincipal →
      Reading found (.ok (AuthDescriptor.plain type))

/-- The fields that a descriptor needs: its type and, for a user principal, all others. -/
def Needs (found : AuthField → Option Json) (f : AuthField) : Prop :=
  f = .authType ∨ f ∈ AuthField.ofUser ∧ Names found .userPrincipal

/-- The first field that is needed and not found. -/
structure Misses (found : AuthField → Option Json) (f : AuthField) : Prop where
  needed : Needs found f
  missing : found f = none
  first : ∀ g, Needs found g → found g = none → AuthField.all.idxOf f ≤ AuthField.all.idxOf g

/-- What a descriptor needs. -/
def Readable (found : AuthField → Option Json) : Prop :=
  ∃ type, Names found type ∧
    (type = .userPrincipal → ∀ f ∈ AuthField.ofUser, (found f).isSome = true)

namespace Reading

theorem ok_iff {result : Except Failure AuthDescriptor} (h : Reading found result) :
    (∃ d, result = .ok d) ↔ Readable found := by
  cases h with
  | untyped hnone =>
      refine iff_of_false nofun ?_
      rintro ⟨type, ⟨v, hv, -⟩, -⟩
      cases hnone.symm.trans hv
  | unknown hv hother =>
      refine iff_of_false nofun ?_
      rintro ⟨type, ⟨w, hw, hname⟩, -⟩
      cases hv.symm.trans hw
      exact hother type hname
  | @incomplete before after f htype hfields hbefore hnone =>
      refine iff_of_false nofun ?_
      rintro ⟨type, htype', hall⟩
      have hf : f ∈ AuthField.ofUser := hfields ▸ List.mem_append_right before List.mem_cons_self
      have hthere := hall (htype'.unique htype) f hf
      rw [hnone] at hthere
      cases hthere
  | user htype _ hfields =>
      exact iff_of_true ⟨_, rfl⟩ ⟨_, htype, fun _ f hf => by rw [hfields f hf]; rfl⟩
  | plain htype hother => exact iff_of_true ⟨_, rfl⟩ ⟨_, htype, fun huser => absurd huser hother⟩

theorem names {d : AuthDescriptor} (h : Reading found (.ok d)) : Names found d.type := by
  cases h with
  | user htype huser => rwa [huser]
  | plain htype => exact htype

theorem eq_unknown {result : Except Failure AuthDescriptor} (h : Reading found result) {v : Json}
    (hv : found .authType = some v) (hother : ∀ type : AuthType, v.shown.trim.upper ≠ type.name) :
    result = .error .authTypeUnknown := by
  have hnames {type : AuthType} (htype : Names found type) : False := by
    obtain ⟨w, hw, hname⟩ := htype
    cases hv.symm.trans hw
    exact hother type hname
  cases h with
  | untyped hnone => cases hnone.symm.trans hv
  | unknown => rfl
  | incomplete htype => exact (hnames htype).elim
  | user htype => exact (hnames htype).elim
  | plain htype => exact (hnames htype).elim

theorem field_iff {d : AuthDescriptor} (h : Reading found (.ok d))
    (hfilled : ∀ f v, found f = some v → v ≠ .null) :
    ∀ f ∈ AuthField.ofUser, d.field f ≠ .null ↔ d.type = .userPrincipal := by
  intro f hf
  cases h with
  | user _ huser hfields => exact iff_of_true (hfilled f _ (hfields f hf)) huser
  | plain _ hother =>
      refine iff_of_false (fun hset => hset ?_) hother
      cases f with
      | authType => exact absurd hf (by decide)
      | _ => rfl

theorem field_filled {d : AuthDescriptor} (h : Reading found (.ok d))
    (hfilled : ∀ f v, found f = some v → v ≠ .null ∧ v ≠ .str []) (f : AuthField) : d.field f ≠ .str [] := by
  by_cases htype : f = .authType
  · subst htype
    have hname (type : AuthType) : Json.str type.name ≠ .str [] := by
      cases type <;> decide
    exact hname d.type
  · have hf : f ∈ AuthField.ofUser := by
      cases f <;> first | decide | exact absurd rfl htype
    cases h with
    | user _ _ hfields => exact (hfilled f _ (hfields f hf)).2
    | plain =>
        intro hempty
        cases f <;> first | cases hempty | exact htype rfl

theorem misses {result : Except Failure AuthDescriptor} {f : AuthField} (h : Reading found result)
    (hneeds : Needs found f) (hnone : found f = none) :
    ∃ g, Misses found g ∧ result = .error (.authFieldMissing g) := by
  cases h with
  | untyped htype => exact ⟨.authType, ⟨.inl rfl, htype, fun _ _ _ => Nat.zero_le _⟩, rfl⟩
  | unknown hv hother =>
      rcases hneeds with rfl | ⟨-, w, hw, hname⟩
      · cases hnone.symm.trans hv
      · cases hv.symm.trans hw
        exact absurd hname (hother _)
  | @incomplete before after g htype hfields hbefore hmissing =>
      have hg : g ∈ AuthField.ofUser := hfields ▸ List.mem_append_right before List.mem_cons_self
      have hlater {f : AuthField} (hneeds : Needs found f) (hnone : found f = none) :
          f ∉ AuthField.authType :: before := by
        intro hmem
        rcases List.mem_cons.mp hmem with rfl | hmem
        · exact htype.isFound hnone
        · have hthere := hbefore f hmem
          rw [hnone] at hthere
          cases hthere
      have hall : AuthField.all = (.authType :: before) ++ g :: after := by
        rw [List.cons_append, ← hfields]
        rfl
      refine ⟨g, ⟨.inr ⟨hg, htype⟩, hmissing, fun f hneeds hnone => ?_⟩, rfl⟩
      rw [hall, List.idxOf_append_of_notMem (hlater (.inr ⟨hg, htype⟩) hmissing),
        List.idxOf_append_of_notMem (hlater hneeds hnone), List.idxOf_cons_self]
      exact Nat.le_add_right _ _
  | user htype _ hfields =>
      rcases hneeds with rfl | ⟨hf, -⟩
      · exact absurd hnone htype.isFound
      · cases hnone.symm.trans (hfields f hf)
  | plain htype hother =>
      rcases hneeds with rfl | ⟨-, huser⟩
      · exact absurd hnone htype.isFound
      · exact absurd (htype.unique huser) hother

end Reading

theorem create_of_filled {d : AuthDescriptor} (huser : d.type = .userPrincipal)
    (hfields : ∀ f ∈ AuthField.ofUser, d.field f ≠ .null) : create d = .ok d := by
  have hnone : AuthField.ofDescriptor.find? (fun f => (d.field f).isNull) = none := by
    refine List.find?_eq_none.mpr fun f hf => ?_
    have hmem : f ∈ AuthField.ofUser := by
      cases f <;> first | decide | exact absurd hf (by decide)
    have hfilled := hfields f hmem
    cases hvalue : d.field f with
    | null => exact absurd hvalue hfilled
    | _ => exact Bool.false_ne_true
  unfold create
  rw [huser]
  dsimp only
  rw [hnone]

theorem ofSettings_user {settings : Entries Json} (htype : hasSetting settings .authType = true)
    (hparse : AuthType.parse ((settings.get? AuthField.authType.name).getD .null).shown =
      .ok .userPrincipal) (hfields : ∀ f ∈ AuthField.ofUser, hasSetting settings f = true) :
    ∃ d, d.type = .userPrincipal ∧ (∀ f ∈ AuthField.ofUser, AuthField.given settings f = some (d.field f)) ∧
      ofSettings (some settings) = .ok d := by
  let get (f : AuthField) : Json := (settings.get? f.name).getD .null
  let d : AuthDescriptor := ⟨.userPrincipal, get .tenantId, get .userId, get .region, get .fingerprint,
    get .pemfilePath⟩
  have hvalue (f : AuthField) (hf : f ∈ AuthField.ofUser) : AuthField.given settings f = some (d.field f) := by
    have hthere := hfields f hf
    rw [← AuthField.isSome_given] at hthere
    obtain ⟨v, hv⟩ := Option.isSome_iff_exists.mp hthere
    have hget : get f = v := by
      simp only [get, (AuthField.given_eq_some.mp hv).1, Option.getD_some]
    rw [hv, ← hget]
    cases f with
    | authType => exact absurd hf (by decide)
    | _ => rfl
  refine ⟨d, rfl, hvalue, ?_⟩
  have hcreate : create d = .ok d :=
    create_of_filled rfl fun f hf => (AuthField.given_eq_some.mp (hvalue f hf)).2.1
  unfold ofSettings
  rw [checkSettings_of_user htype hparse hfields]
  simp only [bind, Except.bind, Option.getD_some, hparse]
  exact hcreate

theorem ofSettings_reading (settings : Entries Json) :
    Reading (AuthField.given settings) (ofSettings (some settings)) := by
  cases htype : AuthField.given settings .authType with
  | none =>
      have hmissing : hasSetting settings .authType = false := by
        rw [← AuthField.isSome_given, htype]; rfl
      have hread : ofSettings (some settings) = .error (.authFieldMissing .authType) := by
        unfold ofSettings checkSettings
        simp only [hmissing]
        rfl
      exact hread ▸ .untyped htype
  | some v =>
      have hthere : hasSetting settings .authType = true := by
        rw [← AuthField.isSome_given, htype]; rfl
      have hget := (AuthField.given_eq_some.mp htype).1
      rcases AuthType.parse_cases v.shown with ⟨type, hname, hparse⟩ | ⟨hother, hparse⟩
      · -- only a user principal has fields to look for
        by_cases huser : type = .userPrincipal
        · subst huser
          cases hfind : AuthField.ofUser.find? fun f => !hasSetting settings f with
          | some f =>
              have hread : ofSettings (some settings) = .error (.authFieldMissing f) := by
                unfold ofSettings checkSettings
                simp only [hthere, hget, Option.getD_some, hparse, hfind]
                rfl
              obtain ⟨hnone, before, after, hfields, hbefore⟩ := List.find?_eq_some_iff_append.mp hfind
              refine hread ▸ .incomplete ⟨v, htype, hname⟩ hfields (fun g hg => ?_) ?_
              · simpa [AuthField.isSome_given] using hbefore g hg
              · simpa [← AuthField.isSome_given] using hnone
          | none =>
              have hall : ∀ f ∈ AuthField.ofUser, hasSetting settings f = true := by
                simpa using List.find?_eq_none.mp hfind
              have hparse' : AuthType.parse ((settings.get? AuthField.authType.name).getD .null).shown =
                  .ok .userPrincipal := by rw [hget]; exact hparse
              obtain ⟨d, huser, hfields, hread⟩ := ofSettings_user hthere hparse' hall
              exact hread ▸ .user ⟨v, htype, hname⟩ huser hfields
        · have hread : ofSettings (some settings) = .ok (plain type) := by
            unfold ofSettings checkSettings
            simp only [hthere, hget, Option.getD_some, hparse]
            cases type with
            | userPrincipal => exact absurd rfl huser
            | _ => rfl
          exact hread ▸ .plain ⟨v, htype, hname⟩ huser
      · have hread : ofSettings (some settings) = .error .authTypeUnknown := by
          unfold ofSettings checkSettings
          simp only [hthere, hget, Option.getD_some, hparse]
          rfl
        exact hread ▸ .unknown htype hother

theorem table_reading (hfilled : ∀ f v, found f = some v → v ≠ .null ∧ v ≠ .str []) :
    Reading found (ofSettings (some (AuthField.table found))) := by
  have hread := ofSettings_reading (AuthField.table found)
  rwa [AuthField.given_table hfilled] at hread

/-- Each field has the value of the first table that has one, and the values that are found decide about
the descriptor or the error. A descriptor is had exactly if a known type is found and, for a user principal,
all its fields; it holds fields exactly for a user principal, and it always has a signer. -/
theorem ofSettings_resolved (parameters credential : Entries Json) :
    let found := AuthField.resolved parameters credential
    let result := ofSettings (some (resolveSettings parameters credential))
    (∀ f, (resolveSettings parameters credential).get? f.name = found f) ∧ Reading found result ∧
      ((∃ d, result = .ok d) ↔ Readable found) ∧
      (∀ d, result = .ok d → Names found d.type ∧
        (∀ f ∈ AuthField.ofUser, d.field f ≠ .null ↔ d.type = .userPrincipal) ∧
        ∀ h, ∃ s, LazySigner.build d h =
          (.ok s, HasJournal.log [LazySigner.announcement (.str d.type.name)] h) ∧ s.isBuilt = false) ∧
      (Failure.authFieldMissing .authType).message = "Missing auth type" ∧
      AuthField.ofUser.map (fun f => (Failure.authFieldMissing f).message) =
        ["Missing tenant id", "Missing user id", "Missing fingerprint", "Missing pemfile",
          "Missing region"] ∧
      (∀ f, (Failure.authFieldMissing f).kind = .own .invalidConfig) ∧
      Failure.authTypeUnknown.kind = .own .unsupportedAuthType := by
  intro found result
  have hfilled (f : AuthField) (v : Json) (h : found f = some v) : v ≠ .null ∧ v ≠ .str [] :=
    AuthField.resolved_filled h
  have hread : Reading found result := by
    simp only [result, AuthField.resolveSettings_eq]
    exact table_reading hfilled
  refine ⟨fun f => ?_, hread, hread.ok_iff, fun d hd => ?_, rfl, rfl, fun _ => rfl, rfl⟩
  · rw [AuthField.resolveSettings_eq, AuthField.get?_table]
  · rw [hd] at hread
    obtain ⟨s, hwaits⟩ := LazySigner.waits_of_ofSettings hd
    refine ⟨hread.names, hread.field_iff fun f v hv => (hfilled f v hv).1, fun h => ?_⟩
    refine ⟨s, ?_, hwaits.unbuilt⟩
    unfold LazySigner.build
    rw [hwaits.ofDescriptor]

end AuthDescriptor

end RemoteModel
