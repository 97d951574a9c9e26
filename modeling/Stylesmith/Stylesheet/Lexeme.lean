import Stylesmith.Text.Blank

set_option autoImplicit false

namespace Stylesmith

/-- A part of a text that is read as one unit. -/
inductive Lexeme where
  /-- A quoted literal; one that is not closed reaches to the end of the text. -/
  | literal (quote : Char) (body : Text) (closed : Bool)
  /-- A comment; one that is not closed reaches to the end of the text. -/
  | comment (body : Text) (closed : Bool)
  /-- A backslash and the character after it, unless the text ends there. -/
  | escape (c : Option Char)
  | plain (c : Char)
  deriving DecidableEq, Repr

namespace Lexeme

/-- The characters of identifiers: letters, digits, hyphen, underscore, and all beyond ASCII. -/
def isIdent (c : Char) : Bool := c.isAlphanum || c == '-' || c == '_' || 128 ≤ c.toNat

def isQuote (c : Char) : Bool := c == '"' || c == '\''

/-- The body of a literal, and what follows its closing quote if there is one. -/
def spanLiteral (quote : Char) : Text → Text × Option Text
  | [] => ([], none)
  | '\\' :: c :: t =>
    let (body, rest) := spanLiteral quote t
    ('\\' :: c :: body, rest)
  | c :: t =>
    if c = quote then ([], some t)
    else
      let (body, rest) := spanLiteral quote t
      (c :: body, rest)

/-- The body of a comment, and what follows its end if there is one. -/
def spanComment : Text → Text × Option Text
  | [] => ([], none)
  | '*' :: '/' :: t => ([], some t)
  | c :: t =>
    let (body, rest) := spanComment t
    (c :: body, rest)

def text : Lexeme → Text
  | literal quote body true => quote :: (body ++ [quote])
  | literal quote body false => quote :: body
  | comment body true => '/' :: '*' :: (body ++ ['*', '/'])
  | comment body false => '/' :: '*' :: body
  | escape none => ['\\']
  | escape (some c) => ['\\', c]
  | plain c => [c]

/-- The first lexeme of a text that starts with `c`, and what follows it. -/
def first (c : Char) (t : Text) : Lexeme × Text :=
  if isQuote c then
    match spanLiteral c t with
    | (body, some rest) => (literal c body true, rest)
    | (body, none) => (literal c body false, [])
  else if c = '\\' then
    match t with
    | [] => (escape none, [])
    | d :: rest => (escape (some d), rest)
  else if c = '/' ∧ t.head? = some '*' then
    match spanComment t.tail with
    | (body, some rest) => (comment body true, rest)
    | (body, none) => (comment body false, [])
  else (plain c, t)

theorem spanLiteral_text (quote : Char) (t : Text) :
    (spanLiteral quote t).1 ++ ((spanLiteral quote t).2.map (quote :: ·)).getD [] = t := by
  fun_induction spanLiteral quote t <;> simp_all

theorem spanComment_text (t : Text) :
    (spanComment t).1 ++ ((spanComment t).2.map ('*' :: '/' :: ·)).getD [] = t := by
  fun_induction spanComment t <;> simp_all

theorem first_text (c : Char) (t : Text) : (first c t).1.text ++ (first c t).2 = c :: t := by
  unfold first
  split
  · have h := spanLiteral_text c t
    split <;> rename_i heq <;> rw [heq] at h <;> simpa [text] using h
  · split
    · rename_i h
      subst h
      cases t <;> simp [text]
    · split
      · rename_i h
        obtain ⟨rfl, h⟩ := h
        cases t with
        | nil => simp at h
        | cons d t =>
          simp at h
          subst h
          have h := spanComment_text t
          split <;> rename_i heq <;> simp only [List.tail_cons] at heq <;> rw [heq] at h <;>
            simpa [text] using h
      · simp [text]

theorem text_ne_nil (l : Lexeme) : l.text ≠ [] := by
  fun_cases text l <;> simp

theorem first_length_le (c : Char) (t : Text) : (first c t).2.length ≤ t.length := by
  have h := congrArg List.length (first_text c t)
  have := List.length_pos_iff.2 (text_ne_nil (first c t).1)
  rw [List.length_append, List.length_cons] at h
  omega

def ofText : Text → List Lexeme
  | [] => []
  | c :: t => (first c t).1 :: ofText (first c t).2
termination_by t => t.length
decreasing_by simpa using Nat.lt_succ_of_le (first_length_le c t)

theorem flatMap_ofText (t : Text) : (ofText t).flatMap text = t := by
  fun_induction ofText t with
  | case1 => rfl
  | case2 c t ih => rw [List.flatMap_cons, ih, first_text]

end Lexeme

end Stylesmith
