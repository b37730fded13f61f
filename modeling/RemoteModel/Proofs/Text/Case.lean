import RemoteModel.Proofs.Text.Digits
import RemoteModel.Text.Case

/-!
Upper case is reached in one step: what stands for a letter in upper case has no upper case but itself.
-/

namespace RemoteModel

namespace Rune

def codesOf (run : Nat × Nat × Nat × Int) : List Nat :=
  List.range' run.1 ((run.2.1 - run.1) / run.2.2.1 + 1) run.2.2.1

/-- Codes of runes that have an upper case other than themselves. -/
def smallCodes : List Nat := Table.upperRuns.flatMap codesOf ++ Table.upperSpecials.map Prod.fst

/-- Codes of runes that stand in the upper case of another one. -/
def raisedCodes : List Nat :=
  (Table.upperRuns.flatMap fun run => (codesOf run).map fun n : Nat => (n + run.2.2.2).toNat) ++
    Table.upperSpecials.flatMap Prod.snd

-- A number with one bit for each code: looking up one letter in it is one step for the kernel, where a
-- search of the tables takes hundreds.
def bitsOf (codes : List Nat) : Nat := codes.foldr (fun n bits => 1 <<< n ||| bits) 0

theorem testBit_bitsOf (codes : List Nat) (n : Nat) :
    (bitsOf codes).testBit n = true ↔ n ∈ codes := by
  induction codes with
  | nil => simp [bitsOf]
  | cons m codes ih =>
      have hcons : bitsOf (m :: codes) = 1 <<< m ||| bitsOf codes := rfl
      rw [hcons, Nat.one_shiftLeft, Nat.testBit_or, Bool.or_eq_true, ih, List.mem_cons,
        Nat.testBit_two_pow, decide_eq_true_iff, eq_comm]

theorem not_small_of_raised {n : Nat} (hn : n ∈ raisedCodes) : n < 0x110000 ∧ n ∉ smallCodes := by
  have hall : ∀ n ∈ raisedCodes, n < 0x110000 ∧ (bitsOf smallCodes).testBit n = false := by
    decide +kernel
  obtain ⟨hcode, hbit⟩ := hall n hn
  refine ⟨hcode, fun hsmall => ?_⟩
  rw [(testBit_bitsOf _ _).mpr hsmall] at hbit
  cases hbit

theorem shiftIn_eq_some {runs : List (Nat × Nat × Nat × Int)} {n m : Nat} (h : shiftIn runs n = some m) :
    ∃ run ∈ runs, n ∈ codesOf run ∧ m = (n + run.2.2.2).toNat := by
  obtain ⟨⟨first, last, step, shift⟩, hfind, rfl⟩ := Option.map_eq_some_iff.mp h
  have hwithin := List.find?_some hfind
  simp only [Bool.and_eq_true, decide_eq_true_eq, beq_iff_eq] at hwithin
  obtain ⟨⟨hfirst, hlast⟩, hstep⟩ := hwithin
  refine ⟨_, List.mem_of_find?_eq_some hfind, List.mem_range'.mpr ⟨(n - first) / step, ?_, ?_⟩, rfl⟩
  · exact Nat.lt_succ_of_le (Nat.div_le_div_right (Nat.sub_le_sub_right hlast first))
  · dsimp only
    rw [Nat.mul_div_cancel' (Nat.dvd_of_mod_eq_zero hstep), Nat.add_sub_cancel' hfirst]

theorem shiftIn_small {n m : Nat} (h : shiftIn Table.upperRuns n = some m) :
    n ∈ smallCodes ∧ m ∈ raisedCodes := by
  obtain ⟨run, hrun, hn, rfl⟩ := shiftIn_eq_some h
  refine ⟨List.mem_append_left _ (List.mem_flatMap.mpr ⟨run, hrun, hn⟩), List.mem_append_left _ ?_⟩
  exact List.mem_flatMap.mpr ⟨run, hrun, List.mem_map_of_mem hn⟩

theorem shiftIn_ascii {n : Nat} (hfirst : 0x61 ≤ n) (hlast : n ≤ 0x7A) :
    n ∈ smallCodes ∧ n - 0x20 ∈ raisedCodes := by
  have hrun : ∀ n ≤ 0x7A, 0x61 ≤ n → shiftIn Table.upperRuns n = some (n - 0x20) := by decide +kernel
  exact shiftIn_small (hrun n hlast hfirst)

theorem upperFull_cases (r : Rune) :
    r.upperFull = [r] ∨ r.code ∈ smallCodes ∧ ∀ s ∈ r.upperFull, ∃ n ∈ raisedCodes, s = ofCode n := by
  unfold upperFull
  dsimp only
  split
  next =>
    split
    next hlower =>
      simp only [isAsciiLower, Bool.and_eq_true, decide_eq_true_eq] at hlower
      obtain ⟨hsmall, hraised⟩ := shiftIn_ascii hlower.1 hlower.2
      exact .inr ⟨hsmall, List.forall_mem_singleton.mpr ⟨_, hraised, rfl⟩⟩
    next => exact .inl rfl
  next =>
    split
    next codes hspecial =>
      obtain ⟨before, after, happ, -⟩ := List.lookup_eq_some_iff.mp hspecial
      have hmem : (r.code, codes) ∈ Table.upperSpecials := by simp [happ]
      refine .inr ⟨List.mem_append_right _ (List.mem_map_of_mem hmem), fun s hs => ?_⟩
      obtain ⟨n, hn, rfl⟩ := List.mem_map.mp hs
      exact ⟨n, List.mem_append_right _ (List.mem_flatMap.mpr ⟨_, hmem, hn⟩), rfl⟩
    next =>
      cases hshift : shiftIn Table.upperRuns r.code with
      | none => exact .inl rfl
      | some m =>
          obtain ⟨hsmall, hraised⟩ := shiftIn_small hshift
          exact .inr ⟨hsmall, List.forall_mem_singleton.mpr ⟨m, hraised, rfl⟩⟩

theorem upperFull_of_not_small {r : Rune} (h : r.code ∉ smallCodes) : r.upperFull = [r] :=
  (upperFull_cases r).resolve_right fun hraised => h hraised.1

theorem upperFull_of_mem {r s : Rune} (hs : s ∈ r.upperFull) : s.upperFull = [s] := by
  rcases upperFull_cases r with hsame | ⟨-, hraised⟩
  · rw [hsame, List.mem_singleton] at hs
    exact hs ▸ hsame
  · obtain ⟨n, hn, rfl⟩ := hraised s hs
    obtain ⟨hcode, hsmall⟩ := not_small_of_raised hn
    exact upperFull_of_not_small (by rwa [code_ofCode hcode])

end Rune

theorem Text.upper_upper (t : Text) : t.upper.upper = t.upper := by
  have hfull : ∀ s ∈ t.upper, s.upperFull = [s] := by
    intro s hs
    obtain ⟨r, -, hs⟩ := List.mem_flatMap.mp hs
    exact Rune.upperFull_of_mem hs
  calc t.upper.upper = t.upper.flatMap fun s => [s] := List.flatMap_congr hfull
    _ = t.upper := List.flatMap_singleton' _

end RemoteModel
