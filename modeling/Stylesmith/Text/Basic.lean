/-!
# Texts

A text is a list of characters. Offsets count characters unless a name says otherwise:
`units16` counts UTF-16 code units, as source maps do, and `bytes` counts UTF-8 bytes.
-/

set_option autoImplicit false

namespace Stylesmith

abbrev Text := List Char

instance : Coe String Text := ⟨String.toList⟩

namespace Text

def lowerAscii (t : Text) : Text := t.map Char.toLower

def eqIgnoringCase (a b : Text) : Bool := lowerAscii a == lowerAscii b

def inRanges (ranges : List (Nat × Nat)) (c : Char) : Bool :=
  ranges.any fun (first, last) => first ≤ c.toNat && c.toNat ≤ last

def charUnits16 (c : Char) : Nat := if c.toNat < 0x10000 then 1 else 2

def units16 : Text → Nat
  | [] => 0
  | c :: t => charUnits16 c + units16 t

def bytes : Text → Nat
  | [] => 0
  | c :: t => c.utf8Size + bytes t

/-- What follows `lead` when the text starts with it. -/
def afterPrefix? : (lead t : Text) → Option Text
  | [], t => some t
  | _ :: _, [] => none
  | p :: lead, c :: t => if p = c then afterPrefix? lead t else none

def startsIgnoringCase (lead t : Text) : Bool := eqIgnoringCase lead (t.take lead.length)

def splitOn (sep : Char) : Text → List Text
  | [] => [[]]
  | c :: t =>
    match splitOn sep t with
    | [] => [[c]]
    | part :: parts => if c = sep then [] :: part :: parts else (c :: part) :: parts

def join (sep : Text) : List Text → Text
  | [] => []
  | [part] => part
  | part :: next :: parts => part ++ sep ++ join sep (next :: parts)

def cutFirst? (sep : Char) : Text → Option (Text × Text)
  | [] => none
  | c :: t => if c = sep then some ([], t) else (cutFirst? sep t).map fun (a, b) => (c :: a, b)

def cutLast? (sep : Char) : Text → Option (Text × Text)
  | [] => none
  | c :: t =>
    match cutLast? sep t with
    | some (a, b) => some (c :: a, b)
    | none => if c = sep then some ([], t) else none

def before (t rest : Text) : Text := t.take (t.length - rest.length)

@[simp] theorem before_append (a rest : Text) : before (a ++ rest) rest = a := by
  simp [before]

/-- Characters of a fixed text are checked one by one. -/
theorem forall_of_all {t : Text} {P : Char → Prop} [DecidablePred P]
    (h : (t.all fun c => decide (P c)) = true) : ∀ c ∈ t, P c := fun c hc =>
  of_decide_eq_true (List.all_eq_true.1 h c hc)

theorem head_dropWhile (p : Char → Bool) (t : Text) : (t.dropWhile p).head?.any p = false := by
  have h := List.head?_dropWhile_not p t
  cases hd : (t.dropWhile p).head? with
  | none => rfl
  | some c => simpa [hd] using h

/-- A run of characters ends where the next one does not belong to it. -/
theorem run_append {p : Char → Bool} {run t : Text} (hrun : ∀ c ∈ run, p c = true)
    (ht : t.head?.any p = false) :
    (run ++ t).takeWhile p = run ∧ (run ++ t).dropWhile p = t := by
  rw [List.takeWhile_append_of_pos hrun, List.dropWhile_append_of_pos hrun]
  cases t with
  | nil => exact ⟨List.append_nil run, rfl⟩
  | cons c t => simp_all

theorem splitOn_ne_nil (sep : Char) (t : Text) : splitOn sep t ≠ [] := by
  cases t with
  | nil => simp [splitOn]
  | cons c t =>
    unfold splitOn
    split
    · simp
    · split <;> simp

end Text

end Stylesmith
