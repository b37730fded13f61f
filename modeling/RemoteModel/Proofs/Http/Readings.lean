import RemoteModel.Http.Body

/-!
The ways of reading a guarded stream. Each of them is one read of the source below, so they share one
place in the body, and what they hand out one after the other is the body from its start.
-/

namespace RemoteModel

/-- A read gives the next bytes of the rest, as many as it asks for or all of them. One that fails
gives none of them, and they stay the next ones. -/
structure HandsOut {σ : Type} [ByteSource σ] (rest : σ → Bytes) : Prop where
  next : ∀ {n s bytes t}, ByteSource.read (some n) s = (.ok bytes, t) →
    bytes = (rest s).take n ∧ rest t = (rest s).drop n
  whole : ∀ {s bytes t}, ByteSource.read none s = (.ok bytes, t) → bytes = rest s ∧ rest t = []
  broken : ∀ {n s f t}, ByteSource.read n s = (.error f, t) → rest t = rest s

theorem HandsOut.split {σ : Type} [ByteSource σ] {rest : σ → Bytes} (hraw : HandsOut rest)
    {n : Option Nat} {s t : σ} {bytes : Bytes} (h : ByteSource.read n s = (.ok bytes, t)) :
    bytes ++ rest t = rest s := by
  cases n with
  | none =>
      obtain ⟨rfl, hrest⟩ := hraw.whole h
      rw [hrest, List.append_nil]
  | some n =>
      obtain ⟨rfl, hrest⟩ := hraw.next h
      rw [hrest, List.take_append_drop]

theorem WireBody.handsOut : HandsOut WireBody.rest where
  next {n s bytes t} h := by
    change WireBody.read (some n) s = _ at h
    cases hfault : s.fault with
    | none =>
        simp only [WireBody.read, hfault] at h
        cases h
        exact ⟨rfl, rfl⟩
    | some f =>
        simp only [WireBody.read, hfault] at h
        split at h <;> cases h
        exact ⟨rfl, rfl⟩
  whole {s bytes t} h := by
    change WireBody.read none s = _ at h
    cases hfault : s.fault <;> simp only [WireBody.read, hfault] at h <;> cases h
    exact ⟨rfl, rfl⟩
  broken {n s f t} h := by
    change WireBody.read n s = _ at h
    cases n <;> cases hfault : s.fault <;> simp only [WireBody.read, hfault] at h
    case none.some => cases h; rfl
    case some.some =>
      split at h <;> cases h
      rfl
    all_goals cases h

namespace Guarded

inductive Reading where
  | read (size : Option Int)
  | readAll
  | readInto (buffer : Bytes)
  deriving DecidableEq, Repr

/-- What a reading comes to. One into a buffer gives back the buffer, and says how much of it is new. -/
inductive Outcome where
  | bytes (given : Bytes)
  | filled (count : Nat) (buffer : Bytes)
  | failed (f : Failure)

def Outcome.delivered : Outcome → Bytes
  | .bytes given => given
  | .filled count buffer => buffer.take count
  | .failed _ => []

def Outcome.failure? : Outcome → Option Failure
  | .failed f => some f
  | _ => none

namespace Reading

/-- How many bytes a reading is for; none stands for all of them. -/
def size? : Reading → Option Nat
  | .read none | .readAll => none
  | .read (some n) => if n < 0 then none else some n.toNat
  | .readInto buffer => some buffer.length

variable {σ : Type} [ByteSource σ]

def perform (r : Reading) (s : Guarded σ) : Outcome × Guarded σ :=
  match r with
  | .read size =>
      match s.read size with
      | (.ok given, t) => (.bytes given, t)
      | (.error f, t) => (.failed f, t)
  | .readAll =>
      match s.readAll with
      | (.ok given, t) => (.bytes given, t)
      | (.error f, t) => (.failed f, t)
  | .readInto buffer =>
      match s.readInto buffer with
      | (.ok (count, buffer), t) => (.filled count buffer, t)
      | (.error f, t) => (.failed f, t)

def run : List Reading → Guarded σ → List Outcome × Guarded σ
  | [], s => ([], s)
  | r :: rs, s =>
      let (o, s) := r.perform s
      let (os, s) := run rs s
      (o :: os, s)

/-- The bytes that readings hand out, in the order they are made. -/
def delivered (rs : List Reading) (s : Guarded σ) : Bytes := (run rs s).1.flatMap Outcome.delivered

/-- The outcome of a reading for which the source below has these bytes. -/
def outcome (given : Bytes) : Reading → Outcome
  | .readInto buffer => .filled given.length (given ++ buffer.drop given.length)
  | _ => .bytes given

@[simp] theorem delivered_outcome (given : Bytes) (r : Reading) :
    (r.outcome given).delivered = given := by
  cases r <;> simp [outcome, Outcome.delivered]

@[simp] theorem failure?_outcome (given : Bytes) (r : Reading) :
    (r.outcome given).failure? = none := by
  cases r <;> rfl

/-- The outcome of a reading that gets this from the source below. -/
def answer (r : Reading) (s : Guarded σ) : Except Failure Bytes → Outcome
  | .ok given => r.outcome given
  | .error f => .failed (s.guarded f)

/-- Every reading is one read of the source below. -/
theorem perform_eq (r : Reading) (s : Guarded σ) :
    r.perform s = (r.answer s (ByteSource.read r.size? s.raw).1,
      { s with raw := (ByteSource.read r.size? s.raw).2 }) := by
  cases r with
  | read size =>
      have hsize : (size.bind fun n => if n < 0 then none else some n.toNat) =
          (Reading.read size).size? := by
        cases size <;> rfl
      simp only [perform, Guarded.read, hsize]
      rcases ByteSource.read (Reading.read size).size? s.raw with ⟨given | f, raw⟩ <;> rfl
  | readAll =>
      simp only [perform, Guarded.readAll, Guarded.read, size?, Option.bind]
      rcases ByteSource.read none s.raw with ⟨given | f, raw⟩ <;> rfl
  | readInto buffer =>
      have hsize : ¬(buffer.length : Int) < 0 := by omega
      simp only [perform, Guarded.readInto, Guarded.read, size?, Option.bind, hsize, if_false,
        Int.toNat_natCast]
      rcases ByteSource.read (some buffer.length) s.raw with ⟨given | f, raw⟩ <;> rfl

theorem perform_ok {r : Reading} {s : Guarded σ} {given : Bytes} {raw : σ}
    (h : ByteSource.read r.size? s.raw = (.ok given, raw)) :
    r.perform s = (r.outcome given, { s with raw }) := by
  rw [perform_eq, h]
  rfl

theorem perform_error {r : Reading} {s : Guarded σ} {f : Failure} {raw : σ}
    (h : ByteSource.read r.size? s.raw = (.error f, raw)) :
    r.perform s = (.failed (s.guarded f), { s with raw }) := by
  rw [perform_eq, h]
  rfl

theorem failure?_perform_eq_none {r : Reading} {s : Guarded σ} :
    (r.perform s).1.failure? = none ↔
      ∃ given raw, ByteSource.read r.size? s.raw = (.ok given, raw) := by
  constructor
  · intro hfree
    cases h : ByteSource.read r.size? s.raw with
    | mk result raw =>
        cases result with
        | ok given => exact ⟨given, raw, rfl⟩
        | error f => simp [perform_error h, Outcome.failure?] at hfree
  · rintro ⟨given, raw, h⟩
    rw [perform_ok h, failure?_outcome]

theorem failure?_perform_of_guarded {r : Reading} {s : Guarded σ} {f : Failure} {raw : σ}
    (h : ByteSource.read r.size? s.raw = (.error f, raw))
    (hf : f.isA (.wire .base) ∨ f.isA (.http .request) ∨ f.isA (.basic .osError)) :
    (r.perform s).1.failure? = some (.readFailed s.connector s.endpoint f) := by
  have hguarded : isGuarded f = true := by
    simpa only [isGuarded, Bool.or_eq_true, or_assoc] using hf
  simp only [perform_error h, Outcome.failure?, guarded, hguarded, if_true]

theorem perform_keeps (r : Reading) (s : Guarded σ) :
    (r.perform s).2.connector = s.connector ∧ (r.perform s).2.endpoint = s.endpoint := by
  rw [perform_eq]
  exact ⟨rfl, rfl⟩

theorem run_keeps (rs : List Reading) (s : Guarded σ) :
    (run rs s).2.connector = s.connector ∧ (run rs s).2.endpoint = s.endpoint := by
  induction rs generalizing s with
  | nil => exact ⟨rfl, rfl⟩
  | cons r rs ih =>
      obtain ⟨hconnector, hendpoint⟩ := r.perform_keeps s
      obtain ⟨hconnector', hendpoint'⟩ := ih (r.perform s).2
      exact ⟨hconnector'.trans hconnector, hendpoint'.trans hendpoint⟩

section HandsOut

variable {rest : σ → Bytes} (hraw : HandsOut rest)
include hraw

theorem perform_advances (r : Reading) (s : Guarded σ) :
    (r.perform s).1.delivered ++ rest (r.perform s).2.raw = rest s.raw := by
  cases h : ByteSource.read r.size? s.raw with
  | mk result raw =>
      cases result with
      | ok given =>
          rw [perform_ok h, delivered_outcome, hraw.split h]
      | error f =>
          rw [perform_error h]
          exact hraw.broken h

theorem delivered_append_rest (rs : List Reading) (s : Guarded σ) :
    delivered rs s ++ rest (run rs s).2.raw = rest s.raw := by
  induction rs generalizing s with
  | nil => rfl
  | cons r rs ih =>
      calc delivered (r :: rs) s ++ rest (run (r :: rs) s).2.raw
          = (r.perform s).1.delivered ++
              (delivered rs (r.perform s).2 ++ rest (run rs (r.perform s).2).2.raw) := by
            simp only [delivered, run, List.flatMap_cons, List.append_assoc]
        _ = rest s.raw := by rw [ih, r.perform_advances hraw s]

theorem delivered_perform {r : Reading} {s : Guarded σ} (hfree : (r.perform s).1.failure? = none) :
    (r.perform s).1.delivered = r.size?.elim (rest s.raw) (rest s.raw).take := by
  obtain ⟨given, raw, h⟩ := failure?_perform_eq_none.mp hfree
  rw [perform_ok h, delivered_outcome]
  cases hsize : r.size? with
  | none => exact (hraw.whole (hsize ▸ h)).1
  | some n => exact (hraw.next (hsize ▸ h)).1

theorem nothing_left {r : Reading} {s : Guarded σ} (hsize : r.size? ≠ some 0)
    (hfree : (r.perform s).1.failure? = none) (hnil : (r.perform s).1.delivered = []) :
    rest s.raw = [] := by
  rw [delivered_perform hraw hfree] at hnil
  cases hr : r.size? with
  | none => simpa [hr] using hnil
  | some n =>
      have htake : (rest s.raw).take n = [] := by
        rw [hr] at hnil
        exact hnil
      rcases List.take_eq_nil_iff.mp htake with rfl | hrest
      · exact absurd hr hsize
      · exact hrest

theorem perform_filled {buffer filled : Bytes} {count : Nat} {s : Guarded σ}
    (h : ((readInto buffer).perform s).1 = .filled count filled) :
    count ≤ buffer.length ∧ ((readInto buffer).perform s).1.delivered.length = count ∧
      filled = ((readInto buffer).perform s).1.delivered ++ buffer.drop count := by
  have hfree : ((readInto buffer).perform s).1.failure? = none := by rw [h]; rfl
  obtain ⟨given, raw, hread⟩ := failure?_perform_eq_none.mp hfree
  obtain ⟨hgiven, -⟩ := hraw.next hread
  rw [perform_ok hread] at h ⊢
  obtain ⟨rfl, rfl⟩ := Outcome.filled.inj h
  rw [delivered_outcome]
  refine ⟨?_, rfl, rfl⟩
  rw [hgiven, List.length_take]
  omega

end HandsOut

end Reading

theorem readings_deliver {σ : Type} [ByteSource σ] {rest : σ → Bytes} (hraw : HandsOut rest)
    (s : Guarded σ) (before : List Reading) (r : Reading) :
    let t := (Reading.run before s).2
    let o := (r.perform t).1
    Reading.delivered before s ++ rest t.raw = rest s.raw ∧
      (o.failure? = none ↔ ∃ given raw, ByteSource.read r.size? t.raw = (.ok given, raw)) ∧
      (r.size? ≠ some 0 → o.failure? = none → o.delivered = [] →
        Reading.delivered before s = rest s.raw) ∧
      (∀ buffer count filled, r = .readInto buffer → o = .filled count filled →
        count ≤ buffer.length ∧ o.delivered.length = count ∧
          filled = o.delivered ++ buffer.drop count) ∧
      (r.size? = none → o.failure? = none →
        Reading.delivered before s ++ o.delivered = rest s.raw) ∧
      ∀ f raw, ByteSource.read r.size? t.raw = (.error f, raw) →
        f.isA (.wire .base) ∨ f.isA (.http .request) ∨ f.isA (.basic .osError) →
        ∃ e, o.failure? = some e ∧ e.isA (.own .transport) ∧ e.connector = s.connector ∧
          e.endpoint = s.endpoint ∧ e.cause? = some f := by
  intro t o
  have hsplit := Reading.delivered_append_rest hraw before s
  refine ⟨hsplit, Reading.failure?_perform_eq_none, fun hsize hfree hnil => ?_,
    fun buffer count filled hr ho => ?_, fun hsize hfree => ?_, fun f raw hread hf => ?_⟩
  · rw [← hsplit, Reading.nothing_left hraw hsize hfree hnil, List.append_nil]
  · subst hr
    exact Reading.perform_filled hraw ho
  · have hall := Reading.delivered_perform hraw hfree
    rw [hsize] at hall
    rw [hall]
    exact hsplit
  · obtain ⟨hconnector, hendpoint⟩ := Reading.run_keeps before s
    exact ⟨_, Reading.failure?_perform_of_guarded hread hf, rfl, hconnector, hendpoint, rfl⟩

namespace Reading

def calls : List Reading := [.read (some 2), .read (some 0), .readInto [0, 0, 0], .readInto [0]]

theorem download_read_in_turn :
    let s : Guarded WireBody := ⟨⟨[1, 2, 3, 4, 5, 6, 7], none⟩, .str "c", .str "u", false⟩
    let broken : Guarded WireBody := { s with raw.fault := some .timeout }
    HandsOut WireBody.rest ∧
      delivered calls s ++ (readAll.perform (run calls s).2).1.delivered = [1, 2, 3, 4, 5, 6, 7] ∧
      ∃ e, (readAll.perform (run calls broken).2).1.failure? = some e ∧ e.isA (.own .transport) ∧
        e.connector = .str "c" ∧ e.endpoint = .str "u" ∧ e.cause? = some BodyFault.timeout.onWire :=
  ⟨WireBody.handsOut, (readings_deliver WireBody.handsOut _ calls readAll).2.2.2.2.1 rfl rfl,
    (readings_deliver WireBody.handsOut _ calls readAll).2.2.2.2.2 _ _ rfl (.inl rfl)⟩

end Reading
end Guarded
end RemoteModel
