import RemoteModel.Failure

/-!
Bodies of answers. A body is read in pieces; it lies in memory, or it is still on the wire, and then
what goes wrong while it is read is an error of the call it belongs to.
-/

namespace RemoteModel

/-- States that hand out bytes. A read asks for at most some bytes, or for all that can be had at
once; one that gives bytes leaves less to read. -/
class ByteSource (σ : Type) where
  read : Option Nat → σ → Except Failure Bytes × σ
  close : σ → Except Failure Unit × σ
  left : σ → Nat
  left_read : ∀ n s b bs t, read n s = (.ok (b :: bs), t) → left t < left s

namespace ByteSource

variable {σ : Type} [ByteSource σ]

/-- Reads blocks onto the bytes read before until a block is empty or a read fails. -/
def drainOnto (block : Nat) (acc : Bytes) (s : σ) : Bytes × Except Failure Unit × σ :=
  match h : read (some block) s with
  | (.error f, t) => (acc, .error f, t)
  | (.ok [], t) => (acc, .ok (), t)
  | (.ok (b :: bs), t) =>
      have := left_read _ _ _ _ _ h
      drainOnto block (acc ++ b :: bs) t
  termination_by left s

/-- What can be read block by block, and how that ends. A block that fails gives nothing. -/
def drain (block : Nat) (s : σ) : Bytes × Except Failure Unit × σ := drainOnto block [] s

def copy (block : Nat) (s : σ) : Except Failure Bytes × σ :=
  match drain block s with
  | (bytes, r, s) => (r.map fun _ => bytes, s)

end ByteSource

/-- Parts that are handed out one after the other; a part may be an error. What a read leaves of a
part is the next part. -/
structure PartSource where
  parts : List (Except Failure Bytes)
  closeFailure : Option Failure
  closes : Nat

namespace PartSource

def readParts (n : Option Nat) :
    List (Except Failure Bytes) → Except Failure Bytes × List (Except Failure Bytes)
  | [] => (.ok [], [])
  | .error f :: rest => (.error f, rest)
  | .ok bytes :: rest =>
      match n with
      | none => (.ok bytes, rest)
      | some n =>
          (.ok (bytes.take n), if (bytes.drop n).isEmpty then rest else .ok (bytes.drop n) :: rest)

def size : List (Except Failure Bytes) → Nat
  | [] => 0
  | .error _ :: rest => 1 + size rest
  | .ok bytes :: rest => 1 + bytes.length + size rest

theorem size_readParts (n : Option Nat) (ps qs : List (Except Failure Bytes)) (b : UInt8)
    (bs : Bytes) (h : readParts n ps = (.ok (b :: bs), qs)) : size qs < size ps := by
  match ps with
  | [] => simp [readParts] at h
  | .error f :: rest => simp [readParts] at h
  | .ok bytes :: rest =>
      cases n with
      | none =>
          simp [readParts] at h
          obtain ⟨_, rfl⟩ := h
          simp only [size]; omega
      | some n =>
          simp only [readParts, Prod.mk.injEq, Except.ok.injEq] at h
          obtain ⟨h, rfl⟩ := h
          have hl : 0 < n ∧ 0 < bytes.length := by
            have := congrArg List.length h
            simp only [List.length_take, List.length_cons] at this
            omega
          split
          · simp only [size]; omega
          · simp only [size, List.length_drop]; omega

instance : ByteSource PartSource where
  read n s :=
    let (r, parts) := readParts n s.parts
    (r, { s with parts })
  close s :=
    (match s.closeFailure with
      | some f => .error f
      | none => .ok (), { s with closes := s.closes + 1 })
  left s := size s.parts
  left_read n s b bs t h := by
    simp only [Prod.mk.injEq] at h
    obtain ⟨h, rfl⟩ := h
    exact size_readParts n s.parts _ b bs (Prod.ext h rfl)

end PartSource

/-- How a body breaks off. -/
inductive BodyFault where
  | timeout
  | reset
  | incomplete
  deriving DecidableEq, Repr

namespace BodyFault

def text : BodyFault → Text
  | .timeout => "None: Read timed out."
  | .reset =>
      "(\"Connection broken: ConnectionResetError(104, 'reset')\", "
        ++ "ConnectionResetError(104, 'reset'))"
  | .incomplete =>
      "('Connection broken: IncompleteRead(0 bytes read, 7 more expected)', "
        ++ "IncompleteRead(0 bytes read, 7 more expected))"

def onWire (f : BodyFault) : Failure :=
  match f with
  | .timeout => .reported (.wire .readTimeout) f.text
  | .reset | .incomplete => .reported (.wire .protocol) f.text

def inExchange (f : BodyFault) : Failure :=
  match f with
  | .timeout => .reported (.http .connection) f.text
  | .reset | .incomplete => .reported (.http .chunkedEncoding) f.text

end BodyFault

/-- A body on the wire. One that breaks off gives its bytes, but never its end. -/
structure WireBody where
  rest : Bytes
  fault : Option BodyFault
  deriving DecidableEq, Repr

namespace WireBody

def read (n : Option Nat) (s : WireBody) : Except Failure Bytes × WireBody :=
  match n, s.fault with
  | none, some f => (.error f.onWire, s)
  | none, none => (.ok s.rest, { s with rest := [] })
  | some n, some f =>
      if s.rest.length < n ∨ s.rest.isEmpty then (.error f.onWire, s)
      else (.ok (s.rest.take n), { s with rest := s.rest.drop n })
  | some n, none => (.ok (s.rest.take n), { s with rest := s.rest.drop n })

theorem rest_read (n : Option Nat) (s t : WireBody) (b : UInt8) (bs : Bytes)
    (h : read n s = (.ok (b :: bs), t)) : t.rest.length < s.rest.length := by
  have take (n : Nat) (h : s.rest.take n = b :: bs) : (s.rest.drop n).length < s.rest.length := by
    have := congrArg List.length h
    simp only [List.length_take, List.length_cons] at this
    rw [List.length_drop]; omega
  unfold read at h
  split at h
  · simp at h
  · simp only [Prod.mk.injEq, Except.ok.injEq] at h
    obtain ⟨h, rfl⟩ := h
    simp [h]
  · split at h
    · simp at h
    · simp only [Prod.mk.injEq, Except.ok.injEq] at h
      obtain ⟨h, rfl⟩ := h
      exact take _ h
  · simp only [Prod.mk.injEq, Except.ok.injEq] at h
    obtain ⟨h, rfl⟩ := h
    exact take _ h

instance : ByteSource WireBody where
  read := read
  close s := (.ok (), s)
  left s := s.rest.length
  left_read n s b bs t h := rest_read n s t b bs h

end WireBody

structure Guarded (σ : Type) where
  raw : σ
  connector : Json
  endpoint : Json
  closed : Bool
  deriving Repr

namespace Guarded

variable {σ : Type} [ByteSource σ]

/-- Errors of the wire, of an exchange and of the system are errors of the call. -/
def isGuarded (f : Failure) : Bool :=
  f.isA (.wire .base) || f.isA (.http .request) || f.isA (.basic .osError)

def guarded (s : Guarded σ) (f : Failure) : Failure :=
  if isGuarded f then .readFailed s.connector s.endpoint f else f

/-- Reads at most some bytes; without a size, or with a negative one, all that can be had. -/
def read (size : Option Int) (s : Guarded σ) : Except Failure Bytes × Guarded σ :=
  let n : Option Nat := size.bind fun i => if i < 0 then none else some i.toNat
  match ByteSource.read n s.raw with
  | (.ok bytes, raw) => (.ok bytes, { s with raw })
  | (.error f, raw) => (.error (s.guarded f), { s with raw })

def readAll (s : Guarded σ) : Except Failure Bytes × Guarded σ := s.read none

/-- Overwrites the start of a buffer and says how many bytes it wrote. -/
def readInto (buffer : Bytes) (s : Guarded σ) : Except Failure (Nat × Bytes) × Guarded σ :=
  match s.read (some buffer.length) with
  | (.ok bytes, s) => (.ok (bytes.length, bytes ++ buffer.drop bytes.length), s)
  | (.error f, s) => (.error f, s)

/-- Closes the source below; the stream is closed even if that fails. -/
def close (s : Guarded σ) : Except Failure Unit × Guarded σ :=
  let (r, raw) := ByteSource.close s.raw
  (r, { s with raw, closed := true })

theorem left_read (n : Option Nat) (s t : Guarded σ) (b : UInt8) (bs : Bytes)
    (h : read (n.map Int.ofNat) s = (.ok (b :: bs), t)) :
    ByteSource.left t.raw < ByteSource.left s.raw := by
  dsimp only [read] at h
  split at h
  next heq =>
    simp only [Prod.mk.injEq, Except.ok.injEq] at h
    obtain ⟨rfl, rfl⟩ := h
    exact ByteSource.left_read _ _ _ _ _ heq
  next => simp at h

instance : ByteSource (Guarded σ) where
  read n s := read (n.map Int.ofNat) s
  close := close
  left s := ByteSource.left s.raw
  left_read n s b bs t h := left_read n s t b bs h

end Guarded

inductive Body where
  | memory (rest : Bytes) (closed : Bool)
  | streamed (s : Guarded WireBody)
  deriving Repr

namespace Body

def ofBytes (bytes : Bytes) : Body := .memory bytes false

def isClosed : Body → Bool
  | .memory _ closed => closed
  | .streamed s => s.closed

def read (n : Option Nat) : Body → Except Failure Bytes × Body
  | .memory rest true => (.error .bodyClosed, .memory rest true)
  | .memory rest false =>
      match n with
      | none => (.ok rest, .memory [] false)
      | some n => (.ok (rest.take n), .memory (rest.drop n) false)
  | .streamed s =>
      let (r, s) := ByteSource.read n s
      (r, .streamed s)

def close : Body → Except Failure Unit × Body
  | .memory rest _ => (.ok (), .memory rest true)
  | .streamed s =>
      let (r, s) := s.close
      (r, .streamed s)

def left : Body → Nat
  | .memory rest _ => rest.length
  | .streamed s => s.raw.rest.length

theorem left_read (n : Option Nat) (s t : Body) (b : UInt8) (bs : Bytes)
    (h : read n s = (.ok (b :: bs), t)) : t.left < s.left := by
  match s with
  | .memory rest true => simp [read] at h
  | .memory rest false =>
      cases n with
      | none =>
          simp only [read, Prod.mk.injEq, Except.ok.injEq] at h
          obtain ⟨rfl, rfl⟩ := h
          simp [left]
      | some n =>
          simp only [read, Prod.mk.injEq, Except.ok.injEq] at h
          obtain ⟨h, rfl⟩ := h
          have := congrArg List.length h
          simp only [List.length_take, List.length_cons] at this
          simp only [left, List.length_drop]; omega
  | .streamed s =>
      simp only [read, Prod.mk.injEq] at h
      obtain ⟨h, rfl⟩ := h
      exact ByteSource.left_read n s b bs _ (Prod.ext h rfl)

instance : ByteSource Body where
  read := read
  close := close
  left := left
  left_read n s b bs t h := left_read n s t b bs h

end Body

end RemoteModel
