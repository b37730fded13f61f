import RemoteModel.Http.Request
import RemoteModel.Proofs.Http.Escapes
import RemoteModel.Proofs.Results

/-!
Addresses of the web in the form in which they are sent. Scheme, host, port and user depend on the beginning
of an address only, so what is sent to one address of a folder can be sent to all others of the folder.
-/

namespace RemoteModel

namespace Text

theorem lowerAfter_ascii {s : Text} (hs : ∀ r ∈ s, r.isAscii = true) (before t : Text) :
    lowerAfter before (s ++ t) = lowerAscii s ++ lowerAfter (s.reverse ++ before) t := by
  induction s generalizing before with
  | nil => rfl
  | cons r s ih =>
      have hascii := hs r List.mem_cons_self
      have hcode : r.code < 0x80 := of_decide_eq_true hascii
      have hsigma : r ≠ .scalar 'Σ' := by
        rintro rfl
        exact absurd hascii (by decide)
      rw [List.cons_append, lowerAfter, if_neg hsigma, Rune.lowerFull, if_pos hcode,
        ih fun q hq => hs q (List.mem_cons_of_mem _ hq), List.reverse_cons, List.append_assoc]
      rfl

end Text

namespace Target

open Percent

variable {s t u url p : Text}

/-- The schemes of the web, in letters of any case. -/
def IsWeb (s : Text) : Prop :=
  Text.lowerAscii s = Text.ofString "http" ∨ Text.lowerAscii s = Text.ofString "https"

theorem letter_of_lower {r : Rune}
    (hr : (if r.isAsciiUpper then Rune.ofCode (r.code + 0x20) else r).isAsciiLower = true) :
    r.isAsciiLetter = true := by
  rw [Rune.isAsciiLetter]
  split at hr
  next hupper => rw [hupper]; rfl
  next => rw [hr, Bool.or_true]

theorem IsWeb.letters (hs : IsWeb s) : ∀ r ∈ s, r.isAsciiLetter = true := by
  have hlower : ∀ r ∈ Text.lowerAscii s, r.isAsciiLower = true := by
    rcases hs with hs | hs <;> rw [hs] <;> decide
  intro r hr
  exact letter_of_lower (hlower _ (List.mem_map_of_mem hr))

theorem IsWeb.cons (hs : IsWeb s) : ∃ first more, s = first :: more := by
  cases s with
  | nil => rcases hs with hs | hs <;> cases hs
  | cons first more => exact ⟨first, more, rfl⟩

theorem code_of_letter {r : Rune} (hr : r.isAsciiLetter = true) : 0x41 ≤ r.code ∧ r.code ≤ 0x7A := by
  simp only [Rune.isAsciiLetter, Rune.isAsciiUpper, Rune.isAsciiLower, Bool.or_eq_true, Bool.and_eq_true,
    decide_eq_true_eq] at hr
  omega

theorem ascii_of_letter {r : Rune} (hr : r.isAsciiLetter = true) : r.isAscii = true := by
  have hcode := code_of_letter hr
  exact decide_eq_true (by omega)

/-- An address of the web: a scheme, two slashes and the rest. -/
def webUrl (s u : Text) : Text := s ++ .scalar ':' :: .scalar '/' :: .scalar '/' :: u

theorem IsWeb.starts (hs : IsWeb s) (u : Text) : Text.startsWith (webUrl s u).lower "http" = true := by
  have hascii : ∀ r ∈ s, r.isAscii = true := fun r hr => ascii_of_letter (hs.letters r hr)
  rw [webUrl, Text.lower, Text.lowerAfter_ascii hascii]
  rcases hs with hs | hs <;> rw [hs] <;> rfl

theorem cutScheme_web (hs : IsWeb s) (dots : Bool) (u : Text) :
    cutScheme dots (webUrl s u) = (some s, .scalar '/' :: .scalar '/' :: u) := by
  have hletters := hs.letters
  obtain ⟨first, more, rfl⟩ := hs.cons
  have hrunes : ∀ r ∈ first :: more, (r.isAsciiLetter || r.isDigit || r = .scalar '+' || r = .scalar '-'
      || (dots && r = .scalar '.')) = true := by
    intro r hr
    rw [hletters r hr]
    rfl
  unfold cutScheme webUrl
  rw [List.span_eq_takeWhile_dropWhile, List.takeWhile_append_of_pos hrunes,
    List.dropWhile_append_of_pos hrunes, List.takeWhile_cons_of_neg (by cases dots <;> decide),
    List.dropWhile_cons_of_neg (by cases dots <;> decide), List.append_nil]
  exact if_pos (hletters first List.mem_cons_self)

/-- What stands between the slashes and the path. -/
def authorityOf (u : Text) : Text :=
  u.takeWhile fun r => r ≠ .scalar '\\' && r ≠ .scalar '/' && r ≠ .scalar '?' && r ≠ .scalar '#'

theorem split_web (hs : IsWeb s) (u : Text) : ∃ path query fragment,
    split (webUrl s u) = ⟨some (Text.lowerAscii s), some (authorityOf u), path, query, fragment⟩ := by
  have hfalse := cutScheme_web hs false u
  have htrue := cutScheme_web hs true u
  unfold split
  rw [hfalse]
  dsimp only
  rw [htrue]
  simp only [List.span_eq_takeWhile_dropWhile]
  exact ⟨_, _, _, rfl⟩

/-! ### The form of an address of the web -/

/-- Host and port that an authority names. -/
def placeOf [HostEncoder] : Text → Option (Text × Option Nat)
  | [] => some ([], none)
  | authority => hostPort? true (cutUser authority).2

/-- User, host and port in the form in which they are sent. -/
def frontOf (authority host : Text) (port : Option Nat) : Text :=
  ((cutUser authority).1.elim [] fun u => escapeUnsafe keepsInUser u ++ [.scalar '@']) ++ host ++
    port.elim [] fun n => .scalar ':' :: Text.ofNat n

/-- The form of an authority that names a host. -/
def placed [HostEncoder] (authority : Text) : Option Text :=
  match placeOf authority with
  | none | some ([], _) => none
  | some (first :: more, port) =>
      (sentHost? (first :: more)).map fun host => frontOf authority host port

/-- Path, query and fragment in the form in which they are sent, behind the first slash. -/
def tailOf (path query fragment : Text) : Text :=
  let form := escapeUnsafe keepsInPath (withoutDots path)
  let part (mark : Rune) (t : Text) : Text := if t.isEmpty then [] else mark :: t
  (if form.head? == some (.scalar '/') then form.drop 1 else form) ++
    part (.scalar '?') (escapeUnsafe keepsInQuery query) ++
    part (.scalar '#') (escapeUnsafe keepsInQuery fragment)

theorem compose_eq (scheme authority path query fragment : Text) :
    compose scheme authority (escapeUnsafe keepsInPath (withoutDots path)) (escapeUnsafe keepsInQuery query)
      (escapeUnsafe keepsInQuery fragment) =
        webUrl scheme (authority ++ .scalar '/' :: tailOf path query fragment) := by
  unfold compose tailOf webUrl
  cases escapeUnsafe keepsInPath (withoutDots path) with
  | nil => simp [Text.ofString]
  | cons first rest => 
      by_cases hslash : first = .scalar '/'
      · simp [hslash, Text.ofString]
      · simp [hslash, Text.ofString]

theorem compose_front (scheme authority path query fragment : Text) :
    ∃ rest, compose scheme authority path query fragment = webUrl scheme rest := by
  unfold compose webUrl
  simp only [List.append_assoc]
  exact ⟨_, rfl⟩

theorem prepare_web [HostEncoder] (hurl : url.trimLeft = webUrl s u) (hs : IsWeb s) : ∃ path query fragment,
    (∀ front, placed (authorityOf u) = some front → prepare url =
      escapeAll (webUrl (Text.lowerAscii s) (front ++ .scalar '/' :: tailOf path query fragment))) ∧
    (placed (authorityOf u) = none → ∃ f, prepare url = .error f) := by
  obtain ⟨path, query, fragment, hsplit⟩ := split_web hs u
  refine ⟨path, query.getD [], fragment.getD [], ?_⟩
  have hordinary : isOrdinary (Text.lowerAscii s) = true := by
    rcases hs with hs | hs <;> rw [hs] <;> decide
  obtain ⟨r, rest, hcons⟩ : ∃ r rest, webUrl s u = r :: rest :=
    List.exists_cons_of_ne_nil (by simp [webUrl])
  -- The two go the same way: where no host is named both fail, and otherwise the form is composed.
  unfold prepare placed
  dsimp only
  rw [hurl, hs.starts, Bool.not_true, Bool.and_false, if_neg Bool.false_ne_true, hsplit]
  simp only [Option.elim_some, Option.getD_some, hordinary, if_true]
  cases authorityOf u with
  | nil =>
      simp only [placeOf, hcons]
      exact ⟨fun _ hfront => (by cases hfront), fun _ => ⟨_, rfl⟩⟩
  | cons letter letters =>
      simp only [placeOf]
      cases hostPort? true (cutUser (letter :: letters)).2 with
      | none => exact ⟨fun _ hfront => (by cases hfront), fun _ => ⟨_, rfl⟩⟩
      | some place =>
          obtain ⟨host, port⟩ := place
          simp only [hcons]
          cases host with
          | nil => exact ⟨fun _ hfront => (by cases hfront), fun _ => ⟨_, rfl⟩⟩
          | cons first more =>
              dsimp only
              cases sentHost? (first :: more) with
              | none => exact ⟨fun _ hfront => (by cases hfront), fun _ => ⟨_, rfl⟩⟩
              | some sent =>
                  refine ⟨fun front hfront => ?_, fun hfront => by cases hfront⟩
                  cases hfront
                  dsimp only
                  rw [compose_eq]
                  rfl

theorem isScalar_of_isAscii {r : Rune} (hr : r.isAscii = true) : r.isScalar = true := by
  cases r with
  | scalar => rfl
  | half u =>
      have hcode : 0xD800 + u.val < 0x80 := of_decide_eq_true hr
      omega

theorem isWellFormed_encode (keep : Rune → Bool) (bytes : Bytes) :
    (Percent.encode keep bytes).isWellFormed = true := by
  have hkept : ∀ n < 0x80, (Rune.ofCode n).isScalar = true := by decide +kernel
  have hdigit : ∀ n < 16, (digit n).isScalar = true := by decide
  refine Text.isWellFormed_iff.mpr fun r hr => ?_
  rcases mem_encode hr with ⟨n, hn, rfl, -⟩ | rfl | ⟨n, hn, rfl⟩
  · exact hkept n hn
  · rfl
  · exact hdigit n hn

theorem keeps_path : (∀ r, isUnreserved r = true → keepsInPath r = true) ∧ keepsInPath mark = false := by
  refine ⟨fun r hr => ?_, by decide⟩
  simp [keepsInPath, keepsInUser, hr]

theorem keeps_query : (∀ r, isUnreserved r = true → keepsInQuery r = true) ∧ keepsInQuery mark = false := by
  refine ⟨fun r hr => ?_, by decide⟩
  simp [keepsInQuery, keeps_path.1 r hr]

theorem whole_part {m : Rune} (hm : m ≠ mark) (ht : Whole t) : Whole (if t.isEmpty then [] else m :: t) := by
  split
  next => exact .nil
  next => exact .rune hm ht

theorem whole_tailOf (path query fragment : Text) : Whole (tailOf path query fragment) := by
  have hform := whole_escapeUnsafe keeps_path.1 keeps_path.2 (withoutDots path)
  unfold tailOf
  refine Whole.append (Whole.append ?_ ?_) ?_
  · split
    next hslash =>
      revert hform hslash
      cases escapeUnsafe keepsInPath (withoutDots path) with
      | nil => exact fun _ _ => .nil
      | cons r rest =>
          intro hform hslash
          cases hform with
          | rune _ hrest => exact hrest
          | escape => exact absurd hslash (by simp [mark])
    next => exact hform
  · exact whole_part (by decide) (whole_escapeUnsafe keeps_query.1 keeps_query.2 query)
  · exact whole_part (by decide) (whole_escapeUnsafe keeps_query.1 keeps_query.2 fragment)

theorem isWellFormed_tailOf (path query fragment : Text) :
    (tailOf path query fragment).isWellFormed = true := by
  have hform (keep : Rune → Bool) (t : Text) : (escapeUnsafe keep t).isWellFormed = true := by
    unfold escapeUnsafe
    exact isWellFormed_encode _ _
  have hpart (m : Char) (t : Text) (ht : t.isWellFormed = true) :
      Text.isWellFormed (if t.isEmpty then [] else .scalar m :: t) = true := by
    split <;> simp [ht]
  unfold tailOf
  simp only [Text.isWellFormed_append, hpart _ _ (hform _ _), Bool.and_true]
  split
  next =>
    refine Text.isWellFormed_iff.mpr fun r hr => ?_
    exact Text.isWellFormed_iff.mp (hform keepsInPath (withoutDots path)) r (List.mem_of_mem_drop hr)
  next => exact hform _ _

/-- A host is sent in ASCII, whatever encodes it. -/
theorem ascii_of_sentHost [HostEncoder] {host sent : Text} (hsent : sentHost? host = some sent) :
    sent.all Rune.isAscii = true := by
  unfold sentHost? at hsent
  split at hsent
  next => exact HostEncoder.ascii_name hsent
  next hascii =>
    split at hsent
    next => cases hsent
    next =>
      cases hsent
      simpa using hascii

theorem isWellFormed_frontOf (authority : Text) {host : Text} (port : Option Nat)
    (hhost : host.all Rune.isAscii = true) : (frontOf authority host port).isWellFormed = true := by
  have hascii : host.isWellFormed = true := Text.isWellFormed_iff.mpr fun r hr =>
    isScalar_of_isAscii (List.all_eq_true.mp hhost r hr)
  have huser : Text.isWellFormed ((cutUser authority).1.elim [] fun u =>
      escapeUnsafe keepsInUser u ++ [.scalar '@']) = true := by
    cases (cutUser authority).1 with
    | none => rfl
    | some u => simp [escapeUnsafe, isWellFormed_encode]
  have hport : Text.isWellFormed (port.elim [] fun n => .scalar ':' :: Text.ofNat n) = true := by
    cases port with
    | none => rfl
    | some n => simp [Text.isWellFormed_ofNat]
  rw [frontOf, Text.isWellFormed_append, Text.isWellFormed_append, huser, hascii, hport]
  rfl

theorem isWellFormed_placed [HostEncoder] {authority front : Text}
    (hfront : placed authority = some front) : front.isWellFormed = true := by
  unfold placed at hfront
  split at hfront
  next => cases hfront
  next => cases hfront
  next first more port _ =>
    obtain ⟨host, hsent, rfl⟩ := Option.map_eq_some_iff.mp hfront
    exact isWellFormed_frontOf authority port (ascii_of_sentHost hsent)

def InScheme (r : Rune) : Prop :=
  r.isAsciiLetter = true ∨ r.isDigit = true ∨ r = .scalar '+' ∨ r = .scalar '-' ∨ r = .scalar '.'

instance (r : Rune) : Decidable (InScheme r) := inferInstanceAs (Decidable (_ ∨ _ ∨ _ ∨ _ ∨ _))

theorem InScheme.stands {r : Rune} (hr : InScheme r) : Stands r := by
  have hcodes : ∀ n < 0x80, InScheme (.ofCode n) → Stands (.ofCode n) := by decide +kernel
  have hcode : r.code < 0x80 := by
    rcases hr with hletter | hdigit | rfl | rfl | rfl
    · have hletter := code_of_letter hletter
      omega
    · rw [Rune.isDigit, Bool.and_eq_true, decide_eq_true_eq, decide_eq_true_eq] at hdigit
      omega
    · decide
    · decide
    · decide
  have hstands := hcodes r.code hcode
  rw [Rune.ofCode_code] at hstands
  exact hstands hr

theorem InScheme.ne_colon {r : Rune} (hr : InScheme r) : r ≠ .scalar ':' := by
  rintro rfl
  exact absurd hr (by decide)

theorem formOf_webUrl (hs : ∀ r ∈ s, Stands r) (t : Text) :
    formOf (plainEscapes 0 (webUrl s t)) (webUrl s t) = webUrl s (formOf (plainEscapes 0 t) t) := by
  have hfront : ∀ r ∈ s ++ [.scalar ':', .scalar '/', .scalar '/'], Stands r := by
    intro r hr
    rcases List.mem_append.mp hr with hr | hr
    · exact hs r hr
    · exact (by decide : ∀ r ∈ [Rune.scalar ':', .scalar '/', .scalar '/'], Stands r) r hr
  have happend (t : Text) : webUrl s t = (s ++ [.scalar ':', .scalar '/', .scalar '/']) ++ t := by
    simp [webUrl]
  rw [happend, formOf_stands hfront, happend]

theorem prepare_front {scheme front : Text} (hscheme : ∀ r ∈ scheme, Stands r)
    (hfront : front.isWellFormed = true) :
    ∃ sent : Text, ∀ path query fragment, ∃ back,
      escapeAll (webUrl scheme (front ++ .scalar '/' :: tailOf path query fragment)) =
        .ok (webUrl scheme (sent ++ .scalar '/' :: back)) := by
  obtain ⟨sent, hsent⟩ := formOf_cut (m := .scalar '/') (by decide) (by decide) (by decide) front
  refine ⟨sent, fun path query fragment => ?_⟩
  obtain ⟨back, hback⟩ := hsent _ (whole_tailOf path query fragment)
  have hscalar : ∀ r ∈ scheme, r.isScalar = true := fun r hr => isScalar_of_isAscii (hscheme r hr).2.1
  have hformed :
      (webUrl scheme (front ++ .scalar '/' :: tailOf path query fragment)).isWellFormed = true := by
    simp [webUrl, Text.isWellFormed_iff.mpr hscalar, hfront, isWellFormed_tailOf]
  refine ⟨back, ?_⟩
  rw [escapeAll_of_wellFormed hformed, formOf_webUrl hscheme, hback]

theorem escapeAll_eq_ok (h : escapeAll t = .ok p) : p = formOf (plainEscapes 0 t) t := by
  have hencode {x : Text} {bytes : Bytes} (hx : Text.encode x = .ok bytes) : bytes = Utf8.encodeLoose x := by
    rw [encode_of_wellFormed (Text.encode_eq_ok_iff.mp ⟨bytes, hx⟩)] at hx
    cases hx
    rfl
  unfold escapeAll at h
  unfold formOf
  cases hplain : plainEscapes 0 t with
  | none =>
      rw [hplain] at h
      cases hx : Text.encode t with
      | error f =>
          rw [hx] at h
          cases h
      | ok bytes =>
          rw [hx] at h
          cases h
          rw [hencode hx]
  | some plain =>
      rw [hplain] at h
      dsimp only at h
      cases hx : Text.encode plain with
      | error f =>
          rw [hx] at h
          cases h
      | ok bytes =>
          rw [hx] at h
          cases h
          rw [hencode hx]

theorem code_lowered (r : Rune) : (if r.isAsciiUpper then Rune.ofCode (r.code + 0x20) else r).code =
    if r.isAsciiUpper then r.code + 0x20 else r.code := by
  split
  next hupper =>
    rw [Rune.isAsciiUpper, Bool.and_eq_true, decide_eq_true_eq, decide_eq_true_eq] at hupper
    exact Rune.code_ofCode (by omega)
  next => rfl

theorem lowerAscii_lowerAscii (t : Text) : Text.lowerAscii (Text.lowerAscii t) = Text.lowerAscii t := by
  unfold Text.lowerAscii
  rw [List.map_map]
  refine List.map_congr_left fun r _ => ?_
  have hlow : Rune.isAsciiUpper (if r.isAsciiUpper then Rune.ofCode (r.code + 0x20) else r) = false := by
    rw [Rune.isAsciiUpper, code_lowered]
    cases hupper : r.isAsciiUpper with
    | true =>
        rw [Rune.isAsciiUpper, Bool.and_eq_true, decide_eq_true_eq, decide_eq_true_eq] at hupper
        simp only [if_true, Bool.and_eq_false_iff, decide_eq_false_iff_not]
        omega
    | false => simpa [Rune.isAsciiUpper] using hupper
  rw [Function.comp_apply, if_neg (by rw [hlow]; exact Bool.false_ne_true)]

theorem startsWith_iff {head : Text} : Text.startsWith t head = true ↔ head <+: t :=
  List.isPrefixOf_iff_prefix

theorem InScheme.lowered {r : Rune} (hr : InScheme r) :
    InScheme (if r.isAsciiUpper then Rune.ofCode (r.code + 0x20) else r) := by
  split
  next hupper =>
    rw [Rune.isAsciiUpper, Bool.and_eq_true, decide_eq_true_eq, decide_eq_true_eq] at hupper
    have hcode : (Rune.ofCode (r.code + 0x20)).code = r.code + 0x20 := Rune.code_ofCode (by omega)
    left
    rw [Rune.isAsciiLetter, Rune.isAsciiLower, hcode, Bool.or_eq_true, Bool.and_eq_true, decide_eq_true_eq,
      decide_eq_true_eq]
    omega
  next => exact hr

theorem inScheme_lowerAscii (hs : ∀ r ∈ s, InScheme r) : ∀ r ∈ Text.lowerAscii s, InScheme r := by
  intro r hr
  obtain ⟨q, hq, rfl⟩ := List.mem_map.mp hr
  exact (hs q hq).lowered

theorem eq_of_append_colon {name rest rest' : Text} (hs : ∀ r ∈ s, r ≠ .scalar ':')
    (hname : ∀ r ∈ name, r ≠ .scalar ':') (h : name ++ .scalar ':' :: rest = s ++ .scalar ':' :: rest') :
    s = name := by
  have htake (x rest : Text) (hx : ∀ r ∈ x, r ≠ .scalar ':') :
      (x ++ .scalar ':' :: rest).takeWhile (· ≠ .scalar ':') = x := by
    rw [List.takeWhile_append_of_pos fun r hr => by simpa using hx r hr, List.takeWhile_cons_of_neg (by simp),
      List.append_nil]
  rw [← htake s rest' hs, ← h, htake name rest hname]

theorem web_of_isServed (hs : ∀ r ∈ s, InScheme r)
    (hserved : isServed (webUrl (Text.lowerAscii s) t) = true) :
    IsWeb s := by
  have hruns := inScheme_lowerAscii hs
  have hascii : ∀ r ∈ Text.lowerAscii s, r.isAscii = true := fun r hr => (hruns r hr).stands.2.1
  obtain ⟨rest, hlower⟩ : ∃ rest,
      (webUrl (Text.lowerAscii s) t).lower = Text.lowerAscii s ++ .scalar ':' :: rest := by
    rw [webUrl, Text.lower, Text.lowerAfter_ascii hascii, lowerAscii_lowerAscii]
    exact ⟨_, rfl⟩
  have hstart {name : Text} (hname : ∀ r ∈ name, r ≠ .scalar ':') {more : Text}
      (hbegins : name ++ .scalar ':' :: more <+: (webUrl (Text.lowerAscii s) t).lower) :
      Text.lowerAscii s = name := by
    obtain ⟨tail, htail⟩ := hbegins
    rw [hlower, List.append_assoc, List.cons_append] at htail
    exact eq_of_append_colon (fun r hr => (hruns r hr).ne_colon) hname htail
  rw [isServed, Bool.or_eq_true, startsWith_iff, startsWith_iff] at hserved
  rcases hserved with hserved | hserved
  · exact .inl (hstart (by decide : ∀ r ∈ Text.ofString "http", r ≠ .scalar ':') hserved)
  · exact .inr (hstart (by decide : ∀ r ∈ Text.ofString "https", r ≠ .scalar ':') hserved)

theorem cutScheme_some {dots : Bool} {rest : Text} (h : cutScheme dots t = (some s, rest)) :
    t = s ++ .scalar ':' :: rest ∧ ∀ r ∈ s, InScheme r := by
  unfold cutScheme at h
  split at h
  next first more rest' hspan =>
    split at h
    next =>
      cases h
      rw [List.span_eq_takeWhile_dropWhile, Prod.mk.injEq] at hspan
      refine ⟨?_, fun r hr => ?_⟩
      · rw [← hspan.1, ← hspan.2, List.takeWhile_append_dropWhile]
      · rw [← hspan.1] at hr
        have hrune := List.mem_takeWhile_imp hr
        simp only [Bool.or_eq_true, Bool.and_eq_true, decide_eq_true_eq] at hrune
        unfold InScheme
        tauto
    next => cases h
  next => cases h

/-- An address is taken apart as it stands, or behind slashes. -/
theorem split_parts (t : Text) : ∃ whole, (whole = t ∨ ∃ rest, whole = .scalar '/' :: rest) ∧
    (split t).scheme = (cutScheme true whole).1.map Text.lowerAscii ∧
    ((split t).authority ≠ none → ∃ u, (cutScheme true whole).2 = .scalar '/' :: .scalar '/' :: u) := by
  refine ⟨_, ?_, rfl, fun hauthority => ?_⟩
  · split
    next => exact .inl rfl
    next => exact .inl rfl
    next => exact .inr ⟨_, rfl⟩
  · unfold split at hauthority
    dsimp only at hauthority
    split at hauthority
    next u hrest => exact ⟨u, hrest⟩
    next => exact absurd rfl hauthority

theorem split_scheme {scheme : Text} (hscheme : (split t).scheme = some scheme) : ∃ s rest,
    t = s ++ .scalar ':' :: rest ∧ scheme = Text.lowerAscii s ∧ (∀ r ∈ s, InScheme r) ∧
      ((split t).authority ≠ none → ∃ u, rest = .scalar '/' :: .scalar '/' :: u) := by
  obtain ⟨whole, hwhole, hcut, hslashes⟩ := split_parts t
  rw [hscheme] at hcut
  obtain ⟨s, hfound, rfl⟩ := Option.map_eq_some_iff.mp hcut.symm
  have hpair : cutScheme true whole = (some s, (cutScheme true whole).2) := Prod.ext hfound rfl
  rcases hwhole with rfl | ⟨rest, rfl⟩
  · obtain ⟨hurl, hruns⟩ := cutScheme_some hpair
    exact ⟨s, _, hurl, rfl, hruns, hslashes⟩
  · cases hfound

theorem web_of_served [HostEncoder] (hprepare : prepare url = .ok p) (hserved : isServed p = true) :
    ∃ s u, url.trimLeft = webUrl s u ∧ IsWeb s := by
  unfold prepare at hprepare
  dsimp only at hprepare
  split at hprepare
  -- What does not start like an address of the web is left as it is, so it is not served.
  next hother =>
    cases hprepare
    rw [Bool.and_eq_true, Bool.not_eq_true'] at hother
    have hhttp : Text.startsWith url.trimLeft.lower "http" = true := by
      rw [startsWith_iff]
      rw [isServed, Bool.or_eq_true, startsWith_iff, startsWith_iff] at hserved
      rcases hserved with hserved | hserved
      · exact List.IsPrefix.trans (by decide) hserved
      · exact List.IsPrefix.trans (by decide) hserved
    rw [hhttp] at hother
    cases hother.2
  next =>
    generalize (split url.trimLeft).scheme.elim true isOrdinary = ordinary at hprepare
    split at hprepare
    next => cases hprepare
    next host port hplace =>
      split at hprepare
      next => cases hprepare
      next => cases hprepare
      next => cases hprepare
      next scheme first more hscheme _ =>
        have hauthority : (split url.trimLeft).authority ≠ none := by
          intro hnone
          rw [hnone] at hplace
          cases hplace
        obtain ⟨s, rest, hurl, rfl, hruns, hslashes⟩ := split_scheme hscheme
        obtain ⟨u, rfl⟩ := hslashes hauthority
        split at hprepare
        next => cases hprepare
        next =>
          obtain ⟨rest, hcompose⟩ := compose_front (Text.lowerAscii s) _ _ _ _
          rw [hcompose] at hprepare
          have hstands (r : Rune) (hr : r ∈ Text.lowerAscii s) : Stands r :=
            (inScheme_lowerAscii hruns r hr).stands
          rw [escapeAll_eq_ok hprepare, formOf_webUrl hstands] at hserved
          exact ⟨s, u, hurl, web_of_isServed hruns hserved⟩

/-- Behind its third slash an address of the web has named its host. -/
theorem webUrl_prefix {base x : Text} (hslashes : 2 < base.count (.scalar '/')) (hs : IsWeb s)
    (h : base ++ x = webUrl s u) : ∃ v, base = webUrl s v ∧ u = v ++ x ∧ .scalar '/' ∈ v := by
  have hnone : s.count (.scalar '/') = 0 := List.count_eq_zero.mpr fun hslash =>
    absurd (hs.letters _ hslash) (by decide)
  have htwo : (s ++ [Rune.scalar ':', .scalar '/', .scalar '/']).count (.scalar '/') = 2 := by
    rw [List.count_append, hnone]
    decide
  have hsplit : base ++ x = (s ++ [Rune.scalar ':', .scalar '/', .scalar '/']) ++ u := by
    rw [h, webUrl, List.append_assoc]
    rfl
  -- The scheme has no slash: up to the authority there are two, too few for the whole beginning.
  rcases List.append_eq_append_iff.mp hsplit with ⟨more, hfront, -⟩ | ⟨v, hbase, hu⟩
  · rw [hfront, List.count_append] at htwo
    omega
  · refine ⟨v, by rw [hbase, webUrl, List.append_assoc]; rfl, hu, List.count_pos_iff.mp ?_⟩
    rw [hbase, List.count_append, htwo] at hslashes
    omega

theorem authorityOf_append {v : Text} (hslash : .scalar '/' ∈ v) (x : Text) :
    authorityOf (v ++ x) = authorityOf v := by
  unfold authorityOf
  rw [List.takeWhile_append, if_neg]
  intro hlength
  have hall := (List.takeWhile_prefix _).eq_of_length hlength
  rw [← hall] at hslash
  exact absurd (List.mem_takeWhile_imp hslash) (by decide)

theorem slash_not_blank : Rune.isBlank (.scalar '/') = false := by
  decide

theorem trimLeft_append {base : Text} (hslash : .scalar '/' ∈ base) (x : Text) :
    (base ++ x).trimLeft = base.trimLeft ++ x := by
  unfold Text.trimLeft
  rw [List.dropWhile_append, if_neg]
  intro hempty
  have hblank := List.dropWhile_eq_nil_iff.mp (List.isEmpty_iff.mp hempty) _ hslash
  rw [slash_not_blank] at hblank
  cases hblank

theorem count_trimLeft (t : Text) : t.trimLeft.count (.scalar '/') = t.count (.scalar '/') := by
  have hnone : (t.takeWhile Rune.isBlank).count (.scalar '/') = 0 := by
    rw [List.count_eq_zero]
    intro hslash
    have hblank := List.mem_takeWhile_imp hslash
    rw [slash_not_blank] at hblank
    cases hblank
  conv_rhs => rw [← List.takeWhile_append_dropWhile (p := Rune.isBlank) (l := t)]
  rw [List.count_append, hnone, Nat.zero_add]
  rfl

/-- What stands behind the third slash has no part in where an address is sent to: if one address can be
sent to, any other with the same beginning can, at the same place. -/
theorem prepare_beside [HostEncoder] {base x : Text} (hslashes : 2 < base.count (.scalar '/'))
    (hprepare : prepare (base ++ x) = .ok p) (hserved : isServed p = true) :
    ∃ scheme sent, IsWeb scheme ∧ ∀ y, ∃ back,
      prepare (base ++ y) = .ok (webUrl scheme (sent ++ .scalar '/' :: back)) ∧
        ∀ r ∈ webUrl scheme (sent ++ .scalar '/' :: back), Address.IsPlain r ∧ r ≠ .scalar ' ' := by
  obtain ⟨s, u, hurl, hs⟩ := web_of_served hprepare hserved
  have hslash : .scalar '/' ∈ base := List.count_pos_iff.mp (by omega)
  rw [trimLeft_append hslash] at hurl
  obtain ⟨v, hbase, rfl, hslash'⟩ := webUrl_prefix (by rwa [count_trimLeft]) hs hurl
  have hbeside (y : Text) : (base ++ y).trimLeft = webUrl s (v ++ y) := by
    rw [trimLeft_append hslash, hbase]
    simp [webUrl]
  cases hplaced : placed (authorityOf v) with
  | none =>
      obtain ⟨_, _, _, -, hnone⟩ := prepare_web (hbeside x) hs
      rw [authorityOf_append hslash'] at hnone
      obtain ⟨f, hf⟩ := hnone hplaced
      rw [hf] at hprepare
      cases hprepare
  | some front =>
      have hstands : ∀ r ∈ Text.lowerAscii s, Stands r := fun r hr =>
        (inScheme_lowerAscii (fun q hq => .inl (hs.letters q hq)) r hr).stands
      obtain ⟨sent, hsent⟩ := prepare_front hstands (isWellFormed_placed hplaced)
      have hweb : IsWeb (Text.lowerAscii s) := by
        rw [IsWeb, lowerAscii_lowerAscii]
        exact hs
      refine ⟨Text.lowerAscii s, sent, hweb, fun y => ?_⟩
      obtain ⟨path, query, fragment, hsome, -⟩ := prepare_web (hbeside y) hs
      rw [authorityOf_append hslash'] at hsome
      obtain ⟨back, hback⟩ := hsent path query fragment
      refine ⟨back, (hsome front hplaced).trans hback, ?_⟩
      rw [escapeAll_eq_ok hback]
      exact plain_of_mem_formOf _ _

theorem isServed_web (hs : IsWeb s) (u : Text) : isServed (webUrl s u) = true := by
  have hascii : ∀ r ∈ s, r.isAscii = true := fun r hr => ascii_of_letter (hs.letters r hr)
  rw [isServed, webUrl, Text.lower, Text.lowerAfter_ascii hascii]
  rcases hs with hs | hs <;> rw [hs] <;> rfl

end Target

namespace Address

open Target

variable {s u url : Text} {a : Address}

theorem cutScheme_of_web (hs : IsWeb s) (u : Text) :
    cutScheme (webUrl s u) = (Text.lowerAscii s, .scalar '/' :: .scalar '/' :: u) := by
  have hletters := hs.letters
  obtain ⟨first, more, rfl⟩ := hs.cons
  refine cutScheme_eq (hletters first List.mem_cons_self) fun r hr => ?_
  rw [isSchemeRune, hletters r hr]
  rfl

/-- Runes that end an authority. -/
def endsAuthority (r : Rune) : Bool := r = .scalar '/' || r = .scalar '?' || r = .scalar '#'

/-- Whom an address names as the user depends on what stands before its path. -/
theorem user_beside {scheme sent back back' : Text} (hs : IsWeb scheme)
    (hplain : ∀ r ∈ webUrl scheme (sent ++ .scalar '/' :: back), IsPlain r ∧ r ≠ .scalar ' ')
    (hplain' : ∀ r ∈ webUrl scheme (sent ++ .scalar '/' :: back'), IsPlain r ∧ r ≠ .scalar ' ') :
    (parse (webUrl scheme (sent ++ .scalar '/' :: back))).map user? =
      (parse (webUrl scheme (sent ++ .scalar '/' :: back'))).map user? := by
  obtain ⟨first, more, rfl⟩ := hs.cons
  have hletters := hs.letters
  have hfirst := (code_of_letter (hletters first List.mem_cons_self)).1
  have hends (back : Text) : (sent ++ .scalar '/' :: back).takeWhile (fun r => !endsAuthority r) =
      sent.takeWhile fun r => !endsAuthority r := by
    rw [List.takeWhile_append]
    split
    next hlength =>
      rw [List.takeWhile_cons_of_neg (by decide), List.append_nil]
      exact ((List.takeWhile_prefix _).eq_of_length hlength).symm
    next => rfl
  have hparse (back : Text) (hplain : ∀ r ∈ webUrl (first :: more) (sent ++ .scalar '/' :: back),
      IsPlain r ∧ r ≠ .scalar ' ') :
      (parse (webUrl (first :: more) (sent ++ .scalar '/' :: back))).map user? =
        (authorityFault? (sent.takeWhile fun r => !endsAuthority r)).elim
          (.ok (cutLast (.scalar '@') (sent.takeWhile fun r => !endsAuthority r)).1)
          fun fault => .error (.badAddress fault) := by
    have hcleaned : cleaned (webUrl (first :: more) (sent ++ .scalar '/' :: back)) =
        webUrl (first :: more) (sent ++ .scalar '/' :: back) :=
      cleaned_of_plain (by omega) fun r hr => (hplain r hr).1
    have hauthority : (cutAuthority (.scalar '/' :: .scalar '/' :: (sent ++ .scalar '/' :: back))).1 =
        sent.takeWhile fun r => !endsAuthority r := by
      rw [← hends back]
      exact congrArg Prod.fst (List.span_eq_takeWhile_dropWhile _ _)
    rw [parse, hcleaned, cutScheme_of_web hs]
    dsimp only
    rw [hauthority]
    cases authorityFault? (sent.takeWhile fun r => !endsAuthority r) with
    | some fault => rfl
    | none => rfl
  rw [hparse back hplain, hparse back' hplain']

theorem scheme_of_parse (hparse : parse url = .ok a) : a.scheme = (cutScheme (cleaned url)).1 := by
  unfold parse at hparse
  dsimp only at hparse
  split at hparse
  next => cases hparse
  next =>
    cases hparse
    rfl

/-- Blanks before an address that count as blanks for one who sends to it, but not for one who takes it
apart. -/
def hidesScheme (url : Text) : Bool := (url.takeWhile Rune.isBlank).any fun r => 0x20 < r.code

theorem hidesScheme_iff : hidesScheme url = true ↔ ∃ r ∈ url.takeWhile Rune.isBlank, 0x20 < r.code := by
  simp only [hidesScheme, List.any_eq_true, decide_eq_true_eq]

theorem not_scheme_of_blank {r : Rune} (hblank : r.isBlank = true) (hcode : 0x20 < r.code) :
    isSchemeRune r = false := by
  have hfar : 0x80 ≤ r.code := by
    simp only [Rune.isBlank, Bool.or_eq_true, Bool.and_eq_true, decide_eq_true_eq, beq_iff_eq] at hblank
    omega
  rw [Bool.eq_false_iff]
  intro hscheme
  simp only [isSchemeRune, Rune.isAsciiLetter, Rune.isAsciiUpper, Rune.isAsciiLower, Rune.isDigit,
    Bool.or_eq_true, Bool.and_eq_true, decide_eq_true_eq] at hscheme
  rcases hscheme with (((hletter | hdigit) | rfl) | rfl) | rfl
  · omega
  · omega
  · exact absurd hfar (by decide)
  · exact absurd hfar (by decide)
  · exact absurd hfar (by decide)

theorem filtered_of_code {r : Rune} (hcode : 0x20 < r.code) :
    (r ≠ .scalar '\t' && r ≠ .scalar '\r' && r ≠ .scalar '\n') = true := by
  simp only [ne_eq, Bool.and_eq_true, decide_eq_true_eq]
  refine ⟨⟨?_, ?_⟩, ?_⟩ <;>
  · rintro rfl
    exact absurd hcode (by decide)

theorem scheme_of_web (hurl : url.trimLeft = webUrl s u) (hs : IsWeb s) (hparse : parse url = .ok a) :
    a.scheme = if hidesScheme url = true then [] else Text.lowerAscii s := by
  have hwhole : url.takeWhile Rune.isBlank ++ webUrl s u = url := by
    rw [← hurl]
    exact List.takeWhile_append_dropWhile
  -- All the blanks are dropped, or the first one that is left is no rune of a scheme.
  rw [scheme_of_parse hparse, cleaned, ← hwhole, List.dropWhile_append, hwhole]
  cases hrest : (url.takeWhile Rune.isBlank).dropWhile fun r => r.code ≤ 0x20 with
  | nil =>
      have hshown : ¬hidesScheme url = true := by
        rw [hidesScheme_iff]
        rintro ⟨r, hr, hcode⟩
        have hblank := of_decide_eq_true (List.dropWhile_eq_nil_iff.mp hrest r hr)
        omega
      obtain ⟨first, more, rfl⟩ := hs.cons
      have hcode (r : Rune) (hr : r ∈ first :: more) : 0x20 < r.code := by
        have hletter := code_of_letter (hs.letters r hr)
        omega
      have hfirst := hcode first List.mem_cons_self
      rw [if_neg hshown, List.isEmpty_nil, if_pos rfl, webUrl, List.cons_append,
        List.dropWhile_cons_of_neg (by simpa using hfirst), ← List.cons_append, List.filter_append,
        List.filter_eq_self.mpr fun r hr => filtered_of_code (hcode r hr)]
      exact congrArg Prod.fst (cutScheme_of_web hs _)
  | cons r rest =>
      have hmem : r ∈ url.takeWhile Rune.isBlank :=
        List.dropWhile_subset _ (hrest ▸ List.mem_cons_self)
      have hcode : 0x20 < r.code := by
        have hnot := List.head_dropWhile_not (fun r : Rune => decide (r.code ≤ 0x20))
          (l := url.takeWhile Rune.isBlank) (by rw [hrest]; nofun)
        simp only [hrest, List.head_cons] at hnot
        exact Nat.lt_of_not_le (of_decide_eq_false hnot)
      have hscheme := not_scheme_of_blank (List.mem_takeWhile_imp hmem) hcode
      rw [if_pos (hidesScheme_iff.mpr ⟨r, hmem, hcode⟩), List.isEmpty_cons,
        if_neg Bool.false_ne_true, List.cons_append,
        List.filter_cons_of_pos (by exact filtered_of_code hcode), cutScheme,
        List.span_eq_takeWhile_dropWhile, List.takeWhile_cons_of_neg (by simp [hscheme])]

end Address

namespace Request

open Target

def signedIn (headers : Headers) : Option Text → Except Failure Headers
  | none => .ok headers
  | some user =>
      match cutOptional (.scalar ':') user with
      | (name, some password) => do
          let name := Percent.decode name
          let password := Percent.decode password
          if name.isEmpty && password.isEmpty then return headers
          else
            let name ← encodeLatin name
            let password ← encodeLatin password
            return headers.put "Authorization" ("Basic " ++ Base64.encode (name ++ 0x3A :: password))
      | _ => .ok headers

theorem withUser_eq (r : Request) : withUser r =
    ((Address.parse r.url).map Address.user? >>= signedIn r.headers).map fun headers => { r with headers } := by
  unfold withUser signedIn
  cases Address.parse r.url with
  | error f => rfl
  | ok a =>
      change (match a.user? with
        | none => _
        | some user => _) = Except.map _ (match a.user? with
        | none => _
        | some user => _)
      cases a.user? with
      | none => rfl
      | some user =>
          dsimp only
          generalize cutOptional (.scalar ':') user = parts
          obtain ⟨name, password⟩ := parts
          cases password with
          | none => rfl
          | some password =>
              dsimp only
              cases (Percent.decode name).isEmpty && (Percent.decode password).isEmpty with
              | true => rfl
              | false =>
                  rw [if_neg Bool.false_ne_true, if_neg Bool.false_ne_true]
                  cases encodeLatin (Percent.decode name) with
                  | error f => rfl
                  | ok name =>
                      cases encodeLatin (Percent.decode password) with
                      | error f => rfl
                      | ok password => rfl

/-- A request for an address of the web, as it is sent. -/
def asked [HostEncoder] (url : Text) : Except Failure Request := (prepare "GET" url [] none).bind withUser

def headersFor (p : Text) : Except Failure Headers :=
  (Address.parse p).map Address.user? >>= signedIn (.ofEntries standardHeaders)

theorem asked_eq [HostEncoder] (url : Text) : asked url = (Target.prepare url).bind fun p =>
    (headersFor p).map fun headers => ⟨"GET", p, headers, none⟩ := by
  have hnone : (Headers.ofEntries standardHeaders).putAll [] = .ofEntries standardHeaders := rfl
  have hsafe : checkHeaders (Headers.ofEntries standardHeaders).entries = .ok () := by decide +kernel
  unfold asked prepare
  dsimp only
  rw [hnone, hsafe]
  cases Target.prepare url with
  | error f => rfl
  | ok p =>
      have hlength (headers : Headers) :
          declareLength ⟨"GET", p, headers, none⟩ = ⟨"GET", p, headers, none⟩ := rfl
      change Except.bind (.ok (declareLength ⟨"GET", p, .ofEntries standardHeaders, none⟩)) withUser = _
      rw [hlength]
      exact withUser_eq _

theorem asked_eq_ok [HostEncoder] {url : Text} {r : Request} (hasked : asked url = .ok r) :
    Target.prepare url = .ok r.url ∧ ∃ headers, headersFor r.url = .ok headers ∧
      r = ⟨"GET", r.url, headers, none⟩ := by
  rw [asked_eq] at hasked
  obtain ⟨p, hprepare, hasked⟩ := ok_of_bind hasked
  cases hheaders : headersFor p with
  | error f =>
      rw [hheaders] at hasked
      cases hasked
  | ok headers =>
      rw [hheaders] at hasked
      cases hasked
      exact ⟨hprepare, headers, hheaders, rfl⟩

theorem web_of_asked [HostEncoder] {url : Text} {r : Request} (hasked : asked url = .ok r)
    (hserved : isServed r.url = true) : ∃ s u, url.trimLeft = webUrl s u ∧ IsWeb s :=
  web_of_served (asked_eq_ok hasked).1 hserved

/-- If one address can be asked for, any other with the same beginning can, in the same way. -/
theorem asked_beside [HostEncoder] {base x : Text} {r : Request} (hslashes : 2 < base.count (.scalar '/'))
    (hasked : asked (base ++ x) = .ok r) (hserved : isServed r.url = true) (y : Text) :
    ∃ url, asked (base ++ y) = .ok { r with url } ∧ isServed url = true := by
  obtain ⟨hprepare, headers, hheaders, hrequest⟩ := asked_eq_ok hasked
  obtain ⟨scheme, sent, hweb, hall⟩ := prepare_beside hslashes hprepare hserved
  obtain ⟨back, hback, hplain⟩ := hall x
  obtain ⟨back', hback', hplain'⟩ := hall y
  have hurl := Except.ok.inj (hprepare.symm.trans hback)
  refine ⟨_, ?_, isServed_web hweb (sent ++ .scalar '/' :: back')⟩
  have hsame : headersFor (webUrl scheme (sent ++ .scalar '/' :: back')) = .ok headers := by
    rw [← hheaders, hurl, headersFor, headersFor, Address.user_beside hweb hplain' hplain]
  rw [asked_eq, hback', hrequest]
  dsimp only [Except.bind]
  rw [hsame]
  rfl

end Request

end RemoteModel
