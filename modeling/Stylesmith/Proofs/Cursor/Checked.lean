import Stylesmith.Proofs.Stylesheet.Faults

/-!
# Checked readings

A checked reading keeps its place in the text as an index and counts its steps. What may go wrong
with an index is an outcome of its own: a slice, a position or a cut that the text does not have,
and a step that does not move the cursor forward within the text.
-/

set_option autoImplicit false

namespace Stylesmith

/-- The parts of a text before and after its first `n` bytes, unless these end within a character or
the text has fewer. -/
def Text.cutBytes? : Nat → Text → Option (Text × Text)
  | 0, t => some ([], t)
  | _ + 1, [] => none
  | n + 1, c :: t =>
    if c.utf8Size ≤ n + 1 then
      (cutBytes? (n + 1 - c.utf8Size) t).map fun (a, b) => (c :: a, b)
    else none

def Header.node {α : Type} (header : Header) (children : List (Node α)) (origin : α) : Node α :=
  match header with
  | .rule selectors => .rule selectors children origin
  | .group name prelude => .group name prelude children origin

namespace Cursor

/-- Why a checked reading ends early. -/
inductive Halt where
  | malformed (e : SyntaxError)
  /-- The text does not have a slice or position, or a cut falls within a character. -/
  | outOfRange
  /-- A step does not move the cursor forward within the text. -/
  | stalled
  deriving DecidableEq, Repr

/-- A reading that counts its steps and may halt. -/
abbrev Checked := ExceptT Halt (StateM Nat)

def tick : Checked Unit := modify (· + 1)

def cutBytes (t : Text) (n : Nat) : Checked (Text × Text) :=
  match Text.cutBytes? n t with
  | some parts => pure parts
  | none => throw .outOfRange

structure Input where
  source : Text
  text : Text
  positions : Bool

namespace Input

variable (i : Input)

def offset (rest : Text) : Nat := i.text.length - rest.length

def slice (start stop : Nat) : Checked Text :=
  if start ≤ stop ∧ stop ≤ i.text.length then pure ((i.text.drop start).take (stop - start))
  else throw .outOfRange

def positionOf (index : Nat) : Checked Position :=
  if index < i.text.length then pure (Position.ofSuffix i.text (i.text.drop index))
  else throw .outOfRange

def fail {α : Type} (cause : SyntaxError.Cause) (index : Nat) : Checked α := do
  let position ← i.positionOf index
  throw (.malformed ⟨i.source, i.text, position, cause⟩)

def origin (start : Nat) : Checked Provenance :=
  if i.positions then do
    let position ← i.positionOf start
    pure ⟨i.source, some position⟩
  else pure ⟨i.source, none⟩

/-- The places of the cursor that are ahead of `p` within the text. -/
abbrev Ahead (p : Nat) : Type := {q : Nat // p < q ∧ q ≤ i.text.length}

def move (p q : Nat) : Checked (i.Ahead p) :=
  if h : p < q ∧ q ≤ i.text.length then pure ⟨q, h⟩ else throw .stalled

def report (f : Fault) : Halt := .malformed (.ofFault i.source i.text f)

def result {α β : Type} (f : α → β) : Except Fault α → Except Halt β
  | .ok a => .ok (f a)
  | .error fault => .error (i.report fault)

def mark (rest : Text) : Provenance := Stylesheet.provenance i.source i.text i.positions rest

section Offset

variable {i} {rest rest' t : Text} {c : Char}

theorem offset_le (rest : Text) : i.offset rest ≤ i.text.length := Nat.sub_le _ _

theorem offset_lt (h : rest <:+ i.text) (hne : rest ≠ []) : i.offset rest < i.text.length := by
  have hlen := h.length_le
  have hpos := List.length_pos_iff.2 hne
  unfold offset
  omega

theorem drop_offset (h : rest <:+ i.text) : i.text.drop (i.offset rest) = rest :=
  (List.suffix_iff_eq_drop.1 h).symm

theorem getElem?_offset_add (h : rest <:+ i.text) (k : Nat) :
    i.text[i.offset rest + k]? = rest[k]? := by
  rw [← List.getElem?_drop, drop_offset h]

theorem getElem?_offset (h : rest <:+ i.text) : i.text[i.offset rest]? = rest.head? := by
  rw [List.head?_eq_getElem?]
  exact getElem?_offset_add h 0

theorem offset_add {k : Nat} (h : rest <:+ i.text) (hk : k ≤ rest.length) :
    i.offset rest + k = i.offset (rest.drop k) := by
  have hlen := h.length_le
  unfold offset
  rw [List.length_drop]
  omega

theorem offset_tail (h : c :: t <:+ i.text) : i.offset (c :: t) + 1 = i.offset t :=
  offset_add h (by simp)

theorem offset_lt_offset (h : rest <:+ i.text) (hlt : rest'.length < rest.length) :
    i.offset rest < i.offset rest' := by
  have hlen := h.length_le
  unfold offset
  omega

theorem slice_offset (h : rest <:+ i.text) (h' : rest' <:+ rest) :
    i.slice (i.offset rest) (i.offset rest') = pure (rest.before rest') := by
  have hle : i.offset rest ≤ i.offset rest' := by
    have := h'.length_le
    unfold offset
    omega
  have hlen : i.offset rest' - i.offset rest = rest.length - rest'.length := by
    have := h.length_le
    have := h'.length_le
    unfold offset
    omega
  rw [slice, if_pos ⟨hle, offset_le rest'⟩, drop_offset h, hlen, Text.before]

theorem positionOf_offset (h : rest <:+ i.text) (hne : rest ≠ []) :
    i.positionOf (i.offset rest) = pure (Position.ofSuffix i.text rest) := by
  rw [positionOf, if_pos (offset_lt h hne), drop_offset h]

theorem fail_offset {α : Type} (cause : SyntaxError.Cause) (h : rest <:+ i.text) (hne : rest ≠ []) :
    (i.fail cause (i.offset rest) : Checked α) = throw (i.report ⟨cause, rest⟩) := by
  rw [fail, positionOf_offset h hne, pure_bind]
  rfl

theorem origin_offset (h : rest <:+ i.text) (hne : rest ≠ []) :
    i.origin (i.offset rest) = pure (i.mark rest) := by
  unfold origin mark Stylesheet.provenance
  split
  · rw [positionOf_offset h hne, pure_bind]
  · rfl

theorem move_offset (h : rest <:+ i.text) (hlt : rest'.length < rest.length) :
    i.move (i.offset rest) (i.offset rest') =
      pure ⟨i.offset rest', offset_lt_offset h hlt, offset_le rest'⟩ :=
  dif_pos _

end Offset

end Input

def Yields {α : Type} (m : Checked α) (result : Except Halt α) (steps : Nat) : Prop :=
  ∀ n, ∃ k ≤ steps, m.run.run n = (result, n + k)

section Yields

variable {α β : Type} {m : Checked α} {f : α → Checked β} {a : α} {e : Halt}
  {x : Except Halt β} {j k : Nat}

theorem yields_pure (a : α) : Yields (pure a) (.ok a) 0 := fun _ => ⟨0, Nat.le_refl 0, rfl⟩

theorem yields_throw (e : Halt) : Yields (throw e : Checked α) (.error e) 0 :=
  fun _ => ⟨0, Nat.le_refl 0, rfl⟩

theorem Yields.mono {x : Except Halt α} (h : Yields m x j) (hjk : j ≤ k) : Yields m x k := by
  intro n
  obtain ⟨steps, hsteps, hrun⟩ := h n
  exact ⟨steps, hsteps.trans hjk, hrun⟩

theorem Yields.bind (hm : Yields m (.ok a) j) (hf : Yields (f a) x k) :
    Yields (m >>= f) x (j + k) := by
  intro n
  obtain ⟨first, hfirst, hm⟩ := hm n
  obtain ⟨second, hsecond, hf⟩ := hf (n + first)
  refine ⟨first + second, Nat.add_le_add hfirst hsecond, ?_⟩
  simp only [ExceptT.run_bind, StateT.run_bind, hm]
  rw [← Nat.add_assoc]
  exact hf

theorem Yields.tick {x : Except Halt α} (h : Yields m x k) :
    Yields (tick >>= fun _ => m) x (k + 1) := by
  intro n
  obtain ⟨steps, hsteps, hrun⟩ := h (n + 1)
  refine ⟨steps + 1, Nat.add_le_add_right hsteps 1, ?_⟩
  rw [Nat.add_comm steps, ← Nat.add_assoc]
  exact hrun

theorem Yields.bind_error (hm : Yields m (.error e) j) : Yields (m >>= f) (.error e) j := by
  intro n
  obtain ⟨steps, hsteps, hm⟩ := hm n
  refine ⟨steps, hsteps, ?_⟩
  simp only [ExceptT.run_bind, StateT.run_bind, hm]
  rfl

end Yields

end Cursor

end Stylesmith
