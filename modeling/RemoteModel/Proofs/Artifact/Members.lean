import Mathlib.Data.List.Basic
import Mathlib.Data.Nat.Find
import RemoteModel.Artifact.Members

/-!
Which members an archive may have. An archive is accepted for what it holds, in whatever order; which
error it is refused with depends on the first member that may not follow those before it.
-/

namespace RemoteModel

namespace ModelFormat

theorem hasFile_unique {f g : ModelFormat} {member : Bytes} (hf : f.hasFile member = true)
    (hg : g.hasFile member = true) : f = g := by
  have hends := List.suffix_or_suffix_of_suffix (List.isSuffixOf_iff_suffix.mp hf)
    (List.isSuffixOf_iff_suffix.mp hg)
  cases f <;> cases g
  case torchScript.torchScript => rfl
  case onnx.onnx => rfl
  all_goals exact absurd hends (by decide)

theorem ofMember?_eq_some_iff {f : ModelFormat} {member : Bytes} :
    ofMember? member = some f ↔ f.hasFile member = true := by
  have hfound (g : ModelFormat) (h : ofMember? member = some g) : g.hasFile member = true := by
    have hfile := List.find?_some h
    exact hfile
  refine ⟨hfound f, fun hfile => ?_⟩
  cases hmember : ofMember? member with
  | none =>
      have hnone := List.find?_eq_none.mp hmember f (by cases f <;> decide)
      exact absurd hfile hnone
  | some g => rw [hasFile_unique (hfound g hmember) hfile]

end ModelFormat

namespace Archive

open MemberSurvey

def isModel (declared : Option ModelFormat) (member : Bytes) : Bool :=
  declared.any fun f => f.hasFile member

/-- A model file of another format than the declared one. -/
def IsStray (declared : Option ModelFormat) (member : Bytes) : Prop :=
  ∃ f : ModelFormat, f.hasFile member = true ∧ declared ≠ some f

/-- What an archive must hold, in terms of what it holds how often. -/
structure Acceptable (declared : Option ModelFormat) (function : Option FunctionName)
    (members : List Bytes) : Prop where
  plain : ∀ member ∈ members, ¬IsStray declared member
  models : members.countP (isModel declared) = 1 ∨
    members.countP (isModel declared) = 0 ∧ function = some .sparseTokenize
  tokenizer : tokenizerName ∈ members ∨ function = some .metricsCorrelation

theorem Acceptable.perm {declared : Option ModelFormat} {function : Option FunctionName}
    {members members' : List Bytes} (h : Acceptable declared function members)
    (hperm : members.Perm members') : Acceptable declared function members' where
  plain member hmember := h.plain member (hperm.mem_iff.mpr hmember)
  models := by
    rw [← hperm.countP_eq]
    exact h.models
  tokenizer := h.tokenizer.imp_left hperm.mem_iff.mp

/-- A member that may not follow others: a stray one, or a second model file. -/
def IsRefused (declared : Option ModelFormat) (before : List Bytes) (member : Bytes) : Prop :=
  IsStray declared member ∨
    isModel declared member = true ∧ ∃ m ∈ before, isModel declared m = true

/-- No member in front of a position is refused. -/
def CleanTo (declared : Option ModelFormat) (members : List Bytes) (i : Nat) : Prop :=
  ∀ j member, j < i → members[j]? = some member → ¬IsRefused declared (members.take j) member

variable {declared : Option ModelFormat} {function : Option FunctionName}
  {members before : List Bytes} {member : Bytes} {i : Nat}

def surveyOf (declared : Option ModelFormat) (members : List Bytes) : MemberSurvey :=
  ⟨members.any (isModel declared), decide (tokenizerName ∈ members)⟩

theorem isModel_iff : isModel declared member = true ↔
    ∃ f, declared = some f ∧ f.hasFile member = true := by
  unfold isModel
  cases declared with
  | none => simp
  | some f => simp

theorem add_stray (s : MemberSurvey) {f : ModelFormat} (hfile : f.hasFile member = true)
    (hother : declared ≠ some f) : s.add declared member = .error (.formatMismatch declared f) := by
  unfold MemberSurvey.add
  rw [ModelFormat.ofMember?_eq_some_iff.mpr hfile]
  exact if_pos hother

theorem add_second {s : MemberSurvey} (hmodel : isModel declared member = true)
    (hbefore : s.hasModel = true) : s.add declared member = .error .multipleModelFiles := by
  obtain ⟨f, rfl, hfile⟩ := isModel_iff.mp hmodel
  unfold MemberSurvey.add
  rw [ModelFormat.ofMember?_eq_some_iff.mpr hfile]
  dsimp only
  rw [if_neg (fun h => h rfl), if_pos hbefore]

theorem add_clean (hclean : ¬IsRefused declared before member) :
    (surveyOf declared before).add declared member =
      .ok (surveyOf declared (before ++ [member])) := by
  have htokenizer : decide (tokenizerName ∈ before ++ [member]) =
      (decide (tokenizerName ∈ before) || decide (member = tokenizerName)) := by
    simp only [List.mem_append, List.mem_singleton, Bool.decide_or, eq_comm]
  unfold MemberSurvey.add surveyOf
  rw [htokenizer, List.any_append]
  cases hmember : ModelFormat.ofMember? member with
  | none =>
      have hno : isModel declared member = false := by
        by_contra hmodel
        obtain ⟨f, -, hfile⟩ := isModel_iff.mp (Bool.not_eq_false _ ▸ hmodel)
        rw [ModelFormat.ofMember?_eq_some_iff.mpr hfile] at hmember
        cases hmember
      simp [hno]
  | some f =>
      have hfile := ModelFormat.ofMember?_eq_some_iff.mp hmember
      obtain rfl : declared = some f := by
        by_contra hother
        exact hclean (.inl ⟨f, hfile, hother⟩)
      have hmodel : isModel (some f) member = true := isModel_iff.mpr ⟨f, rfl, hfile⟩
      have hfirst : before.any (isModel (some f)) = false := by
        by_contra hbefore
        rw [Bool.not_eq_false, List.any_eq_true] at hbefore
        exact hclean (.inr ⟨hmodel, hbefore⟩)
      simp [hfirst, hmodel]

/-- Up to the first refused member the survey holds what it has seen. -/
theorem addAll_take (hi : i ≤ members.length) (hclean : CleanTo declared members i) :
    addAll declared .start members =
      addAll declared (surveyOf declared (members.take i)) (members.drop i) := by
  induction i with
  | zero => rfl
  | succ i ih =>
      have hmember : members[i]? = some members[i] := List.getElem?_eq_getElem hi
      have hstep := add_clean (hclean i members[i] (Nat.lt_succ_self i) hmember)
      rw [ih (Nat.le_of_succ_le hi) fun j m hj => hclean j m (Nat.lt_succ_of_lt hj),
        List.drop_eq_getElem_cons hi, addAll, hstep, List.take_succ_eq_append_getElem hi]
      rfl

theorem addAll_clean (hclean : CleanTo declared members members.length) :
    addAll declared .start members = .ok (surveyOf declared members) := by
  rw [addAll_take (Nat.le_refl _) hclean, List.take_length, List.drop_length]
  rfl

theorem addAll_refused (hmember : members[i]? = some member) (hclean : CleanTo declared members i)
    {f : Failure} (hadd : (surveyOf declared (members.take i)).add declared member = .error f) :
    addAll declared .start members = .error f := by
  obtain ⟨hi, rfl⟩ := List.getElem?_eq_some_iff.mp hmember
  rw [addAll_take (Nat.le_of_lt hi) hclean, List.drop_eq_getElem_cons hi, addAll, hadd]
  rfl

theorem checkMembers_refused (hmember : members[i]? = some member)
    (hclean : CleanTo declared members i) {f : Failure}
    (hadd : (surveyOf declared (members.take i)).add declared member = .error f) :
    checkMembers declared function members = .error f := by
  unfold checkMembers
  rw [addAll_refused hmember hclean hadd]
  rfl

theorem exists_refused (hdirty : ¬CleanTo declared members members.length) :
    ∃ i member, members[i]? = some member ∧ CleanTo declared members i ∧
      IsRefused declared (members.take i) member := by
  classical
  have hsome : ∃ i member, members[i]? = some member ∧
      IsRefused declared (members.take i) member := by
    unfold CleanTo at hdirty
    push Not at hdirty
    obtain ⟨i, member, -, hmember, hrefused⟩ := hdirty
    exact ⟨i, member, hmember, hrefused⟩
  obtain ⟨member, hmember, hrefused⟩ := Nat.find_spec hsome
  refine ⟨Nat.find hsome, member, hmember, fun j m hj hm hrefused' => ?_, hrefused⟩
  exact Nat.find_min hsome hj ⟨m, hm, hrefused'⟩

theorem countP_take_le_one (hclean : CleanTo declared members i) :
    (members.take i).countP (isModel declared) ≤ 1 := by
  induction i with
  | zero => exact Nat.zero_le 1
  | succ i ih =>
      have hbefore := ih fun j m hj => hclean j m (Nat.lt_succ_of_lt hj)
      rcases Nat.lt_or_ge i members.length with hi | hi
      · rw [List.take_succ_eq_append_getElem hi, List.countP_append, List.countP_singleton]
        split
        next hmodel =>
          have hnone : (members.take i).countP (isModel declared) = 0 := by
            refine List.countP_eq_zero.mpr fun m hm hfirst => ?_
            exact hclean i members[i] (Nat.lt_succ_self i) (List.getElem?_eq_getElem hi)
              (.inr ⟨hmodel, m, hm, hfirst⟩)
          exact Nat.le_of_eq (congrArg (· + 1) hnone)
        next => exact hbefore
      · rwa [List.take_of_length_le (Nat.le_succ_of_le hi), ← List.take_of_length_le hi]

theorem not_acceptable_of_refused (hmember : members[i]? = some member)
    (hrefused : IsRefused declared (members.take i) member) :
    ¬Acceptable declared function members := by
  intro hacceptable
  rcases hrefused with hstray | ⟨hmodel, hbefore⟩
  · exact hacceptable.plain member (List.mem_of_getElem? hmember) hstray
  · obtain ⟨hi, rfl⟩ := List.getElem?_eq_some_iff.mp hmember
    have hfirst : 0 < (members.take i).countP (isModel declared) := List.countP_pos_iff.mpr hbefore
    have hsplit : members.countP (isModel declared) =
        (members.take i).countP (isModel declared) +
          ((members.drop (i + 1)).countP (isModel declared) + 1) := by
      conv_lhs => rw [← List.take_append_drop i members, List.drop_eq_getElem_cons hi]
      rw [List.countP_append, List.countP_cons_of_pos hmodel]
    rcases hacceptable.models with hone | ⟨hnone, -⟩
    · omega
    · omega

theorem checkMembers_clean (hclean : CleanTo declared members members.length) :
    checkMembers declared function members = check function (surveyOf declared members) := by
  unfold checkMembers
  rw [addAll_clean hclean]
  rfl

theorem acceptable_iff_of_clean (hclean : CleanTo declared members members.length) :
    Acceptable declared function members ↔
      (members.countP (isModel declared) ≠ 0 ∨ function = some .sparseTokenize) ∧
        (tokenizerName ∈ members ∨ function = some .metricsCorrelation) := by
  have hfew := countP_take_le_one hclean
  rw [List.take_length] at hfew
  constructor
  · intro h
    refine ⟨h.models.imp (fun hone => ?_) And.right, h.tokenizer⟩
    rw [hone]
    exact Nat.one_ne_zero
  · rintro ⟨hmodels, htokenizer⟩
    refine ⟨fun member hmember hstray => ?_, ?_, htokenizer⟩
    · obtain ⟨i, hi, rfl⟩ := List.getElem_of_mem hmember
      exact hclean i _ hi (List.getElem?_eq_getElem hi) (.inl hstray)
    · by_cases hnone : members.countP (isModel declared) = 0
      · exact .inr ⟨hnone, hmodels.resolve_left fun hsome => hsome hnone⟩
      · exact .inl (by omega)

theorem hasModel_surveyOf : (surveyOf declared members).hasModel = true ↔
    members.countP (isModel declared) ≠ 0 := by
  rw [← Nat.pos_iff_ne_zero, List.countP_pos_iff]
  exact List.any_eq_true

theorem check_surveyOf : check function (surveyOf declared members) =
    if members.countP (isModel declared) = 0 ∧ function ≠ some .sparseTokenize then
      .error .noModelFile
    else if tokenizerName ∉ members ∧ function ≠ some .metricsCorrelation then
      .error .noTokenizerFile
    else .ok () := by
  have hmodel : (!(surveyOf declared members).hasModel) =
      decide (members.countP (isModel declared) = 0) := by
    rw [Bool.eq_iff_iff, Bool.not_eq_true', ← Bool.not_eq_true, hasModel_surveyOf, not_not,
      decide_eq_true_iff]
  unfold check
  rw [hmodel]
  simp only [surveyOf, Bool.and_eq_true, decide_eq_true_eq, Bool.not_eq_true',
    decide_eq_false_iff_not]

theorem checkMembers_eq_ok_iff :
    checkMembers declared function members = .ok () ↔ Acceptable declared function members := by
  by_cases hclean : CleanTo declared members members.length
  · rw [checkMembers_clean hclean, check_surveyOf, acceptable_iff_of_clean hclean]
    split
    next hmodels => simp [hmodels]
    next hmodels =>
      split
      next htokenizer => simp [htokenizer]
      next htokenizer => exact ⟨fun _ => by tauto, fun _ => rfl⟩
  · obtain ⟨i, member, hmember, hfirst, hrefused⟩ := exists_refused hclean
    obtain ⟨f, hadd⟩ : ∃ f, (surveyOf declared (members.take i)).add declared member = .error f := by
      rcases hrefused with ⟨f, hfile, hother⟩ | ⟨hmodel, hbefore⟩
      · exact ⟨_, add_stray _ hfile hother⟩
      · exact ⟨_, add_second hmodel (List.any_eq_true.mpr hbefore)⟩
    rw [checkMembers_refused hmember hfirst hadd]
    exact ⟨nofun, fun h => absurd h (not_acceptable_of_refused hmember hrefused)⟩

/-- The verdict on members. They are accepted just when they hold what they must, so their order does not
matter to that. Otherwise the first member that is refused decides: a stray one for its format, any
other for being the second; where none is refused a missing model file comes before a missing tokenizer.
An archive is judged by the names that it gives to its members. -/
theorem checkMembers_verdict (declared : Option ModelFormat) (function : Option FunctionName)
    (members : List Bytes) :
    (checkMembers declared function members = .ok () ↔ Acceptable declared function members) ∧
    (∀ i member, members[i]? = some member → CleanTo declared members i →
      (∀ f : ModelFormat, f.hasFile member = true → declared ≠ some f →
        checkMembers declared function members = .error (.formatMismatch declared f)) ∧
      (isModel declared member = true → (∃ m ∈ members.take i, isModel declared m = true) →
        checkMembers declared function members = .error .multipleModelFiles)) ∧
    (CleanTo declared members members.length → ¬Acceptable declared function members →
      checkMembers declared function members =
        .error (if members.countP (isModel declared) = 0 ∧ function ≠ some .sparseTokenize then
          .noModelFile else .noTokenizerFile)) ∧
    (∀ members', members.Perm members' →
      (checkMembers declared function members' = .ok () ↔
        checkMembers declared function members = .ok ())) ∧
    ∀ model p t file, Files.read t p = .ok file → memberNames file = .ok members →
      verify declared function model p t = checkMembers declared function members := by
  refine ⟨checkMembers_eq_ok_iff, fun i member hmember hclean => ⟨fun f hfile hother => ?_,
    fun hmodel hbefore => ?_⟩, fun hclean hnot => ?_, fun members' hperm => ?_,
    fun model p t file hread hnames => ?_⟩
  · exact checkMembers_refused hmember hclean (add_stray _ hfile hother)
  · exact checkMembers_refused hmember hclean (add_second hmodel (List.any_eq_true.mpr hbefore))
  · rw [acceptable_iff_of_clean hclean] at hnot
    rw [checkMembers_clean hclean, check_surveyOf]
    split
    next => rfl
    next hmodels =>
      have htokenizer : tokenizerName ∉ members ∧ function ≠ some .metricsCorrelation := by
        tauto
      rw [if_pos htokenizer]
  · rw [checkMembers_eq_ok_iff, checkMembers_eq_ok_iff]
    exact ⟨fun h => h.perm hperm.symm, fun h => h.perm hperm⟩
  · unfold verify
    rw [hread]
    dsimp only [bind, Except.bind]
    rw [hnames]

end Archive

end RemoteModel
