import RemoteModel.Http.Body

/-!
Bodies as they come from the wire. Whatever stands between a reader and the wire, a body that is read
block by block to its end is whole, and what was read is all of it.
-/

namespace RemoteModel

/-- Sources that hand out, where they succeed, what the wire hands out. -/
class OnWire (σ : Type) extends ByteSource σ where
  wire : σ → WireBody
  read_wire : ∀ n s bytes t, ByteSource.read n s = (.ok bytes, t) →
    (wire s).read n = (.ok bytes, wire t)

namespace OnWire

instance : OnWire WireBody where
  wire := id
  read_wire _ _ _ _ h := h

variable {σ : Type} [OnWire σ]

theorem guarded_read {n : Option Nat} {s t : Guarded σ} {bytes : Bytes}
    (h : ByteSource.read n s = (.ok bytes, t)) : ByteSource.read n s.raw = (.ok bytes, t.raw) := by
  change Guarded.read (n.map Int.ofNat) s = _ at h
  have hsize : ((n.map Int.ofNat).bind fun i => if i < 0 then none else some i.toNat) = n := by
    cases n with
    | none => rfl
    | some n => simp [show ¬((n : Int) < 0) by omega]
  unfold Guarded.read at h
  rw [hsize] at h
  dsimp only at h
  split at h
  next hread => cases h; exact hread
  next => simp at h

instance : OnWire (Guarded σ) where
  wire s := wire s.raw
  read_wire n s bytes t h := read_wire n s.raw bytes t.raw (guarded_read h)

instance : OnWire Body where
  wire
    | .memory rest _ => ⟨rest, none⟩
    | .streamed s => wire s
  read_wire n s bytes t h := by
    change Body.read n s = _ at h
    cases s with
    | memory rest closed =>
        cases closed with
        | true => simp [Body.read] at h
        | false =>
            cases n <;>
              (simp only [Body.read, Prod.mk.injEq, Except.ok.injEq] at h
               obtain ⟨rfl, rfl⟩ := h
               rfl)
    | streamed s =>
        simp only [Body.read, Prod.mk.injEq] at h
        obtain ⟨h, rfl⟩ := h
        exact read_wire n s bytes _ (Prod.ext h rfl)

end OnWire

theorem WireBody.read_some {n : Nat} {s t : WireBody} {bytes : Bytes}
    (h : s.read (some n) = (.ok bytes, t)) :
    bytes = s.rest.take n ∧ t.rest = s.rest.drop n ∧ t.fault = s.fault ∧
      (s.rest = [] → s.fault = none) := by
  unfold WireBody.read at h
  split at h
  next heq _ => simp at heq
  next heq _ => simp at heq
  next size fault hsize hfault =>
    cases hsize
    split at h
    next => simp at h
    next hlong =>
      cases h
      refine ⟨rfl, rfl, rfl, fun hnil => ?_⟩
      exact absurd (.inr (by simp [hnil])) hlong
  next size hsize hfault =>
    cases hsize
    cases h
    exact ⟨rfl, rfl, rfl, fun _ => hfault⟩

namespace OnWire

variable {σ : Type} [OnWire σ]

theorem drainOnto_ok {block : Nat} (hblock : 0 < block) (acc : Bytes) (s : σ)
    (h : (ByteSource.drainOnto block acc s).2.1 = .ok ()) :
    (wire s).fault = none ∧ (ByteSource.drainOnto block acc s).1 = acc ++ (wire s).rest := by
  induction hleft : ByteSource.left s using Nat.strongRecOn generalizing s acc with
  | ind left ih =>
      rw [ByteSource.drainOnto] at h ⊢
      split at h
      next => simp at h
      next t hread =>
        obtain ⟨htake, _, _, hwhole⟩ := WireBody.read_some (read_wire _ _ _ _ hread)
        have hnil : (wire s).rest = [] := by
          rcases List.take_eq_nil_iff.mp htake.symm with hzero | hnil
          · omega
          · exact hnil
        exact ⟨hwhole hnil, by simp [hnil]⟩
      next b bs t hread =>
        obtain ⟨htake, hdrop, hfault, _⟩ := WireBody.read_some (read_wire _ _ _ _ hread)
        have hless := ByteSource.left_read _ _ _ _ _ hread
        obtain ⟨hnone, hall⟩ := ih _ (hleft ▸ hless) (acc ++ b :: bs) t h rfl
        refine ⟨hfault ▸ hnone, ?_⟩
        rw [hall, hdrop, htake, List.append_assoc, List.take_append_drop]

theorem drain_ok {block : Nat} (hblock : 0 < block) (s : σ)
    (h : (ByteSource.drain block s).2.1 = .ok ()) :
    (wire s).fault = none ∧ (ByteSource.drain block s).1 = (wire s).rest :=
  drainOnto_ok hblock [] s h

end OnWire

end RemoteModel
