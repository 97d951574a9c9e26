import Stylesmith.Proofs.Stylesheet.Scanning
import Stylesmith.Proofs.Text.Splitting
import Stylesmith.Stylesheet.Reference

set_option autoImplicit false

namespace Stylesmith.Reference

open Lexeme (isQuote Enclosed)
open Text (isBlank isWide isWide_of_isBlank skipBlanks)

def IsName (name : Text) : Prop := Text.lowerAscii name = "url("

/-- The text of a reference. The readers differ in the characters of a gap and in what fits between
the quotes or, without quotes, between the gaps. -/
inductive Written (isGap : Char → Bool) (Fits : Reference → Prop) (r : Reference) : Text → Prop
  | mk {name gap tail : Text} : IsName name → (∀ c ∈ gap, isGap c = true) →
      (∀ c ∈ tail, isGap c = true) → Fits r →
      Written isGap Fits r
        (name ++ (gap ++ (r.quote.toList ++ (r.target ++ (r.quote.toList ++ (tail ++ [')']))))))

theorem Written.mono {isGap isGap' : Char → Bool} {Fits Fits' : Reference → Prop} {r : Reference}
    {w : Text} (h : Written isGap Fits r w) (hgap : ∀ c ∈ w, isGap c = true → isGap' c = true)
    (hfits : Fits r → Fits' r) : Written isGap' Fits' r w := by
  cases h with
  | @mk name gap tail hname hg ht hr =>
    refine .mk hname ?_ ?_ (hfits hr)
    · exact fun c hc => hgap c (by simp [hc]) (hg c hc)
    · exact fun c hc => hgap c (by simp [hc]) (ht c hc)

theorem Written.ne_nil {isGap : Char → Bool} {Fits : Reference → Prop} {r : Reference} {w : Text}
    (h : Written isGap Fits r w) : w ≠ [] := by
  cases h
  simp

theorem IsName.length {name : Text} (h : IsName name) : name.length = 4 := by
  have hlength := congrArg List.length h
  rwa [Text.lowerAscii, List.length_map] at hlength

theorem startsIgnoringCase_iff {t : Text} : Text.startsIgnoringCase "url(" t = true ↔
    ∃ name rest, IsName name ∧ t = name ++ rest := by
  constructor
  · intro h
    refine ⟨t.take 4, t.drop 4, ?_, (List.take_append_drop 4 t).symm⟩
    exact (beq_iff_eq.1 h).symm
  · rintro ⟨name, rest, hname, rfl⟩
    have htake : (name ++ rest).take 4 = name := by rw [← hname.length, List.take_left]
    exact beq_iff_eq.2 (htake.symm ▸ hname.symm)

theorem IsName.drop {name : Text} (h : IsName name) (rest : Text) : (name ++ rest).drop 4 = rest := by
  rw [← h.length, List.drop_left]

theorem exists_gap (isGap : Char → Bool) (t : Text) : ∃ gap rest, t = gap ++ rest ∧
    (∀ c ∈ gap, isGap c = true) ∧ rest.head?.any isGap = false := by
  refine ⟨t.takeWhile isGap, t.dropWhile isGap, ?_, ?_, Text.head_dropWhile isGap t⟩
  · rw [List.takeWhile_append_dropWhile]
  · exact List.all_eq_true.1 List.all_takeWhile

def closed? (isGap : Char → Bool) (t : Text) : Option Text :=
  match t.dropWhile isGap with
  | ')' :: rest => some rest
  | _ => none

theorem closed?_append {isGap : Char → Bool} {tail : Text} (hparen : isGap ')' = false)
    (htail : ∀ c ∈ tail, isGap c = true) (rest : Text) :
    closed? isGap (tail ++ ')' :: rest) = some rest := by
  simp only [closed?, (Text.run_append htail (t := ')' :: rest) hparen).2]

theorem exists_of_closed? {isGap : Char → Bool} {t rest : Text}
    (h : closed? isGap t = some rest) :
    ∃ tail, (∀ c ∈ tail, isGap c = true) ∧ t = tail ++ ')' :: rest := by
  unfold closed? at h
  split at h
  · rename_i hdrop
    cases h
    refine ⟨t.takeWhile isGap, List.all_eq_true.1 List.all_takeWhile, ?_⟩
    rw [← hdrop, List.takeWhile_append_dropWhile]
  · cases h

theorem afterClose?_eq : afterClose? = closed? isWide := rfl

/-! ## The pattern -/

/-- Whether a target ends where the pattern ends it. -/
def isSimple : Reference → Bool
  | ⟨some quote, target⟩ => isQuote quote && !target.contains quote
  | ⟨none, target⟩ => target.all isTargetChar

theorem isWide_of_isQuote {c : Char} (h : isQuote c = true) : isWide c = false := by
  rcases Lexeme.isQuote_iff.1 h with rfl | rfl <;> rfl

theorem isBlank_of_isQuote {c : Char} (h : isQuote c = true) : isBlank c = false := by
  rcases Lexeme.isQuote_iff.1 h with rfl | rfl <;> rfl

theorem head_any_of_append {p : Char → Bool} {t u : Text} (h : (t ++ u).head?.any p = false) :
    t.head?.any p = false := by
  cases t with
  | nil => rfl
  | cons c t => exact h

theorem head_quote (t : Text) :
    (∃ quote rest, isQuote quote = true ∧ t = quote :: rest) ∨ t.head?.any isQuote = false := by
  cases t with
  | nil => exact .inr rfl
  | cons c t =>
    cases hc : isQuote c with
    | true => exact .inl ⟨c, t, hc, rfl⟩
    | false => exact .inr hc

section Pattern

variable {name gap : Text} (hname : IsName name) (hgap : ∀ c ∈ gap, isWide c = true)

include hname hgap

theorem read?_quote {quote : Char} (hquote : isQuote quote = true) (t : Text) :
    read? (name ++ (gap ++ quote :: t)) = (Text.cutFirst? quote t).bind fun (target, t) =>
      (afterClose? t).map fun rest => (⟨some quote, target⟩, rest) := by
  have hwide : ((quote :: t).head?.any isWide) = false := isWide_of_isQuote hquote
  unfold read?
  rw [if_pos (startsIgnoringCase_iff.2 ⟨name, _, hname, rfl⟩), hname.drop,
    (Text.run_append hgap hwide).2]
  rcases Lexeme.isQuote_iff.1 hquote with rfl | rfl <;> rfl

theorem read?_bare {t : Text} (hwide : t.head?.any isWide = false)
    (hquote : t.head?.any isQuote = false) :
    read? (name ++ (gap ++ t)) = (afterClose? (t.dropWhile isTargetChar)).map fun rest =>
      (⟨none, t.takeWhile isTargetChar⟩, rest) := by
  unfold read?
  rw [if_pos (startsIgnoringCase_iff.2 ⟨name, _, hname, rfl⟩), hname.drop,
    (Text.run_append hgap hwide).2]
  split
  · cases hquote
  · cases hquote
  · rfl

variable {tail : Text} (htail : ∀ c ∈ tail, isWide c = true)

include htail

theorem read?_written_quote {quote : Char} {target : Text} (hquote : isQuote quote = true)
    (hmem : quote ∉ target) (rest : Text) :
    read? (name ++ (gap ++ quote :: (target ++ quote :: (tail ++ ')' :: rest)))) =
      some (⟨some quote, target⟩, rest) := by
  simp only [read?_quote hname hgap hquote, Text.cutFirst?_append hmem, Option.bind_some,
    afterClose?_eq, closed?_append rfl htail, Option.map_some]

theorem read?_written_bare {target : Text} (htarget : ∀ c ∈ target, isTargetChar c = true)
    (rest : Text) :
    read? (name ++ (gap ++ (target ++ (tail ++ ')' :: rest)))) = some (⟨none, target⟩, rest) := by
  cases target with
  | nil =>
    -- Without a target the two gaps are one, and the pattern skips all of it at once.
    have hgaps : ∀ c ∈ gap ++ tail, isWide c = true := by
      simpa [or_imp, forall_and] using And.intro hgap htail
    have hread := read?_bare hname hgaps (t := ')' :: rest) rfl rfl
    rw [List.append_assoc] at hread
    exact hread
  | cons c target =>
    have hc := htarget c List.mem_cons_self
    simp only [isTargetChar, Bool.not_eq_true', Bool.or_eq_false_iff] at hc
    have hstop : (tail ++ ')' :: rest).head?.any isTargetChar = false := by
      cases tail with
      | nil => rfl
      | cons d tail => simp [isTargetChar, htail d List.mem_cons_self]
    obtain ⟨htake, hdrop⟩ := Text.run_append htarget hstop
    rw [read?_bare hname hgap (t := c :: target ++ (tail ++ ')' :: rest)) hc.2
      (Bool.or_eq_false_iff.2 hc.1.1), htake, hdrop, afterClose?_eq, closed?_append rfl htail,
      Option.map_some]

end Pattern

theorem read?_eq_some_iff {t rest : Text} {r : Reference} : read? t = some (r, rest) ↔
    ∃ w, Written isWide (fun r => r.isSimple = true) r w ∧ t = w ++ rest := by
  constructor
  · intro h
    have hstart : Text.startsIgnoringCase "url(" t = true := by
      unfold read? at h
      split at h
      · assumption
      · cases h
    obtain ⟨name, t, hname, rfl⟩ := startsIgnoringCase_iff.1 hstart
    obtain ⟨gap, t, rfl, hgap, hhead⟩ := exists_gap isWide t
    rcases head_quote t with ⟨quote, t, hquote, rfl⟩ | hquote
    · rw [read?_quote hname hgap hquote, Option.bind_eq_some_iff] at h
      obtain ⟨⟨target, t⟩, hcut, h⟩ := h
      obtain ⟨rest, hclose, h⟩ := Option.map_eq_some_iff.1 h
      cases h
      obtain ⟨hmem, rfl⟩ := Text.cutFirst?_eq_some_iff.1 hcut
      obtain ⟨tail, htail, rfl⟩ := exists_of_closed? hclose
      refine ⟨_, .mk hname hgap htail (r := ⟨some quote, target⟩) ?_, ?_⟩
      · simp [isSimple, hquote, hmem]
      · simp
    · rw [read?_bare hname hgap hhead hquote, Option.map_eq_some_iff] at h
      obtain ⟨rest, hclose, h⟩ := h
      cases h
      obtain ⟨tail, htail, hdrop⟩ := exists_of_closed? hclose
      refine ⟨_, .mk hname hgap htail (List.all_takeWhile (p := isTargetChar)), ?_⟩
      have ht := List.takeWhile_append_dropWhile (p := isTargetChar) (l := t)
      rw [hdrop] at ht
      simp [ht]
  · rintro ⟨_, ⟨hname, hgap, htail, hsimple⟩, rfl⟩
    rcases r with ⟨_ | quote, target⟩
    · simpa using read?_written_bare hname hgap htail (List.all_eq_true.1 hsimple) rest
    · simp only [isSimple, Bool.and_eq_true, Bool.not_eq_true', List.contains_eq_mem,
        decide_eq_false_iff_not] at hsimple
      simpa using read?_written_quote hname hgap htail hsimple.1 hsimple.2 rest

/-! ## The tokens -/

/-- An unquoted target without the blanks at its end, unless an escape makes them part of it. -/
def trimTarget : Text → Text
  | [] => []
  | '\\' :: c :: t => '\\' :: c :: trimTarget t
  | c :: t => if isBlank c && (trimTarget t).isEmpty then [] else c :: trimTarget t

def bareToken? (t : Text) : Option (Reference × Text) :=
  match Lexeme.spanLiteral ')' t with
  | (body, some rest) => some (⟨none, trimTarget body⟩, rest)
  | (_, none) => none

def quotedToken? (quote : Char) (t : Text) : Option (Reference × Text) :=
  match Lexeme.spanLiteral quote t with
  | (target, some t) => (closed? isBlank t).map fun rest => (⟨some quote, target⟩, rest)
  | (_, none) => none

/-- The reference that a text starts with as a scanner reads it, and what follows it. -/
def token? (t : Text) : Option (Reference × Text) :=
  if Scan.opensReference false t then bareToken? (skipBlanks (t.drop 4))
  else if Text.startsIgnoringCase "url(" t then
    match skipBlanks (t.drop 4) with
    | quote :: t => quotedToken? quote t
    | [] => none
  else none

def IsToken : Reference → Prop
  | ⟨some quote, target⟩ => isQuote quote = true ∧ Enclosed quote target
  | ⟨none, target⟩ => Enclosed ')' target ∧ target.head?.any isBlank = false ∧
      target.head?.any isQuote = false ∧ trimTarget target = target

theorem trimTarget_cons {c : Char} (hc : c ≠ '\\') (t : Text) :
    trimTarget (c :: t) =
      if isBlank c && (trimTarget t).isEmpty then [] else c :: trimTarget t := by
  rw [trimTarget]
  rintro d u rfl
  exact absurd rfl hc

theorem trimTarget_blanks {tail : Text} (htail : ∀ c ∈ tail, isBlank c = true) :
    trimTarget tail = [] := by
  induction tail with
  | nil => rfl
  | cons c tail ih =>
    have hc := htail c List.mem_cons_self
    have hne : c ≠ '\\' := by
      rintro rfl
      cases hc
    rw [trimTarget_cons hne, ih fun d hd => htail d (List.mem_cons_of_mem c hd), hc]
    rfl

theorem trimTarget_append {close : Char} {target tail : Text} (h : Enclosed close target)
    (htail : ∀ c ∈ tail, isBlank c = true) :
    trimTarget (target ++ tail) = trimTarget target := by
  induction h with
  | nil => exact trimTarget_blanks htail
  | escape c _ ih => rw [List.cons_append, List.cons_append, trimTarget, ih, trimTarget]
  | char _ hc _ ih => rw [List.cons_append, trimTarget_cons hc, ih, trimTarget_cons hc]

theorem enclosed_append {close : Char} {t u : Text} (ht : Enclosed close t)
    (hu : Enclosed close u) : Enclosed close (t ++ u) := by
  induction ht with
  | nil => exact hu
  | escape c _ ih => exact .escape c ih
  | char h1 h2 _ ih => exact .char h1 h2 ih

theorem enclosed_of_not_mem {close : Char} {t : Text} (hclose : close ∉ t) (hescape : '\\' ∉ t) :
    Enclosed close t := by
  induction t with
  | nil => exact .nil
  | cons c t ih =>
    rw [List.mem_cons, not_or] at hclose hescape
    exact .char (Ne.symm hclose.1) (Ne.symm hescape.1) (ih hclose.2 hescape.2)

theorem enclosed_blanks {gap : Text} (hgap : ∀ c ∈ gap, isBlank c = true) : Enclosed ')' gap := by
  refine enclosed_of_not_mem (fun h => ?_) (fun h => ?_)
  · cases hgap _ h
  · cases hgap _ h

/-- Only blanks are dropped, and none of them is escaped. -/
theorem exists_trimTarget {close : Char} {body : Text} (h : Enclosed close body) :
    ∃ tail, (∀ c ∈ tail, isBlank c = true) ∧ body = trimTarget body ++ tail ∧
      Enclosed close (trimTarget body) := by
  induction h with
  | nil => exact ⟨[], by simp, rfl, .nil⟩
  | escape c _ ih =>
    obtain ⟨tail, htail, hbody, henclosed⟩ := ih
    refine ⟨tail, htail, ?_, .escape c henclosed⟩
    rw [trimTarget, List.cons_append, List.cons_append, ← hbody]
  | @char c t h1 h2 _ ih =>
    obtain ⟨tail, htail, hbody, henclosed⟩ := ih
    rw [trimTarget_cons h2]
    split_ifs with hblank
    · rw [Bool.and_eq_true, List.isEmpty_iff] at hblank
      rw [hblank.2, List.nil_append] at hbody
      refine ⟨c :: t, ?_, rfl, .nil⟩
      rw [List.forall_mem_cons, hbody]
      exact ⟨hblank.1, htail⟩
    · refine ⟨tail, htail, ?_, .char h1 h2 henclosed⟩
      rw [List.cons_append, ← hbody]

theorem exists_of_quotedToken? {quote : Char} {t rest : Text} {r : Reference}
    (h : quotedToken? quote t = some (r, rest)) : ∃ target tail, r = ⟨some quote, target⟩ ∧
      Enclosed quote target ∧ (∀ c ∈ tail, isBlank c = true) ∧
        t = target ++ quote :: (tail ++ ')' :: rest) := by
  unfold quotedToken? at h
  split at h
  · rename_i target t hspan
    obtain ⟨rest, hclose, h⟩ := Option.map_eq_some_iff.1 h
    cases h
    obtain ⟨htarget, rfl⟩ := Lexeme.enclosed_of_spanLiteral hspan
    obtain ⟨tail, htail, rfl⟩ := exists_of_closed? hclose
    exact ⟨target, tail, rfl, htarget, htail, rfl⟩
  · cases h

theorem exists_of_bareToken? {t rest : Text} {r : Reference} (h : bareToken? t = some (r, rest))
    (hblank : t.head?.any isBlank = false) (hquote : t.head?.any isQuote = false) :
    ∃ target tail, r = ⟨none, target⟩ ∧ IsToken ⟨none, target⟩ ∧
      (∀ c ∈ tail, isBlank c = true) ∧ t = target ++ (tail ++ ')' :: rest) := by
  unfold bareToken? at h
  split at h
  · rename_i body rest hspan
    cases h
    obtain ⟨hbody, rfl⟩ := Lexeme.enclosed_of_spanLiteral hspan
    obtain ⟨tail, htail, heq, htarget⟩ := exists_trimTarget hbody
    have htrim : trimTarget (trimTarget body) = trimTarget body := by
      rw [← trimTarget_append htarget htail, ← heq]
    have hhead : ∀ p : Char → Bool, (body ++ ')' :: rest).head?.any p = false →
        (trimTarget body).head?.any p = false := by
      intro p hp
      rw [heq, List.append_assoc] at hp
      exact head_any_of_append hp
    refine ⟨trimTarget body, tail, rfl, ⟨htarget, hhead _ hblank, hhead _ hquote, htrim⟩, htail, ?_⟩
    rw [← List.append_assoc, ← heq]
  · cases h

section Token

variable {name gap : Text} (hname : IsName name) (hgap : ∀ c ∈ gap, isBlank c = true)

include hname hgap

theorem token?_quote {quote : Char} (hquote : isQuote quote = true) (t : Text) :
    token? (name ++ (gap ++ quote :: t)) = quotedToken? quote t := by
  have hblank : ((quote :: t).head?.any isBlank) = false := isBlank_of_isQuote hquote
  unfold token? Scan.opensReference
  rw [startsIgnoringCase_iff.2 ⟨name, _, hname, rfl⟩, hname.drop, skipBlanks,
    (Text.run_append hgap hblank).2]
  simp [hquote]

theorem token?_bare {t : Text} (hblank : t.head?.any isBlank = false)
    (hquote : t.head?.any isQuote = false) :
    token? (name ++ (gap ++ t)) = bareToken? t := by
  unfold token? Scan.opensReference
  rw [startsIgnoringCase_iff.2 ⟨name, _, hname, rfl⟩, hname.drop, skipBlanks,
    (Text.run_append hgap hblank).2, hquote]
  rfl

variable {tail : Text} (htail : ∀ c ∈ tail, isBlank c = true)

include htail

theorem token?_written_quote {quote : Char} {target : Text} (hquote : isQuote quote = true)
    (htarget : Enclosed quote target) (rest : Text) :
    token? (name ++ (gap ++ quote :: (target ++ quote :: (tail ++ ')' :: rest)))) =
      some (⟨some quote, target⟩, rest) := by
  rw [token?_quote hname hgap hquote, quotedToken?,
    Lexeme.spanLiteral_of_enclosed (Lexeme.ne_backslash_of_isQuote hquote) htarget]
  simp only [closed?_append rfl htail, Option.map_some]

theorem token?_written_bare {target : Text} (htarget : IsToken ⟨none, target⟩) (rest : Text) :
    token? (name ++ (gap ++ (target ++ (tail ++ ')' :: rest)))) = some (⟨none, target⟩, rest) := by
  obtain ⟨henclosed, hblank, hquote, htrim⟩ := htarget
  cases target with
  | nil =>
    -- As for the pattern, the two gaps around no target are one.
    have hgaps : ∀ c ∈ gap ++ tail, isBlank c = true := by
      simpa [or_imp, forall_and] using And.intro hgap htail
    have hread := token?_bare hname hgaps (t := ')' :: rest) rfl rfl
    rw [List.append_assoc] at hread
    exact hread
  | cons c target =>
    rw [token?_bare hname hgap (t := c :: target ++ _) hblank hquote, bareToken?,
      ← List.append_assoc,
      Lexeme.spanLiteral_of_enclosed (by decide) (enclosed_append henclosed (enclosed_blanks htail))]
    simp only [trimTarget_append henclosed htail, htrim]

end Token

theorem token?_eq_some_iff {t rest : Text} {r : Reference} : token? t = some (r, rest) ↔
    ∃ w, Written isBlank IsToken r w ∧ t = w ++ rest := by
  constructor
  · intro h
    have hstart : Text.startsIgnoringCase "url(" t = true := by
      unfold token? Scan.opensReference at h
      split_ifs at h <;> simp_all
    obtain ⟨name, t, hname, rfl⟩ := startsIgnoringCase_iff.1 hstart
    obtain ⟨gap, t, rfl, hgap, hhead⟩ := exists_gap isBlank t
    rcases head_quote t with ⟨quote, t, hquote, rfl⟩ | hquote
    · rw [token?_quote hname hgap hquote] at h
      obtain ⟨target, tail, rfl, htarget, htail, rfl⟩ := exists_of_quotedToken? h
      refine ⟨_, .mk hname hgap htail (r := ⟨some quote, target⟩) ⟨hquote, htarget⟩, ?_⟩
      simp
    · rw [token?_bare hname hgap hhead hquote] at h
      obtain ⟨target, tail, rfl, htarget, htail, rfl⟩ := exists_of_bareToken? h hhead hquote
      refine ⟨_, .mk hname hgap htail htarget, ?_⟩
      simp
  · rintro ⟨_, @⟨name, gap, tail, hname, hgap, htail, hfits⟩, rfl⟩
    rcases r with ⟨_ | quote, target⟩
    · simpa using token?_written_bare hname hgap htail hfits rest
    · simpa using token?_written_quote hname hgap htail hfits.1 hfits.2 rest

/-! ## Where they agree -/

/-- A pattern takes more white space for a gap than a scanner. -/
theorem read?_of_token? {t rest : Text} {r : Reference} (h : token? t = some (r, rest))
    (hr : r.isSimple = true) : read? t = some (r, rest) := by
  obtain ⟨w, hw, rfl⟩ := token?_eq_some_iff.1 h
  exact read?_eq_some_iff.2 ⟨w, hw.mono (fun _ _ => isWide_of_isBlank) fun _ => hr, rfl⟩

/-- Whether a text has no escapes and no white space but blanks. -/
def isOrdinary (t : Text) : Bool := t.all fun c => c != '\\' && (!isWide c || isBlank c)

theorem isOrdinary_iff {t : Text} : isOrdinary t = true ↔
    ∀ c ∈ t, c ≠ '\\' ∧ (isWide c = true → isBlank c = true) := by
  simp [isOrdinary, Decidable.imp_iff_not_or]

theorem trimTarget_of_not_blank {t : Text} (hblank : ∀ c ∈ t, isBlank c = false)
    (hescape : '\\' ∉ t) : trimTarget t = t := by
  induction t with
  | nil => rfl
  | cons c t ih =>
    rw [List.mem_cons, not_or] at hescape
    rw [List.forall_mem_cons] at hblank
    rw [trimTarget_cons (Ne.symm hescape.1), hblank.1, ih hblank.2 hescape.2]
    rfl

theorem isToken_of_isSimple {r : Reference} (hr : r.isSimple = true) (hescape : '\\' ∉ r.target) :
    IsToken r := by
  rcases r with ⟨_ | quote, target⟩
  · have hchar : ∀ c ∈ target, isQuote c = false ∧ c ≠ ')' ∧ isBlank c = false := by
      intro c hc
      have h := List.all_eq_true.1 hr c hc
      simp only [isTargetChar, Bool.not_eq_true', Bool.or_eq_false_iff] at h
      refine ⟨Bool.or_eq_false_iff.2 h.1.1, by simpa using h.1.2, ?_⟩
      rw [← Bool.not_eq_true]
      intro hblank
      rw [isWide_of_isBlank hblank] at h
      cases h.2
    refine ⟨enclosed_of_not_mem (fun h => (hchar _ h).2.1 rfl) hescape, ?_, ?_,
      trimTarget_of_not_blank (fun c hc => (hchar c hc).2.2) hescape⟩
    · cases target with
      | nil => rfl
      | cons c target => exact (hchar c List.mem_cons_self).2.2
    · cases target with
      | nil => rfl
      | cons c target => exact (hchar c List.mem_cons_self).1
  · simp only [isSimple, Bool.and_eq_true, Bool.not_eq_true', List.contains_eq_mem,
      decide_eq_false_iff_not] at hr
    exact ⟨hr.1, enclosed_of_not_mem hr.2 hescape⟩

theorem token?_of_read? {t rest : Text} {r : Reference} (ht : isOrdinary t = true)
    (h : read? t = some (r, rest)) : token? t = some (r, rest) := by
  rw [isOrdinary_iff] at ht
  obtain ⟨w, hw, rfl⟩ := read?_eq_some_iff.1 h
  refine token?_eq_some_iff.2 ⟨w, hw.mono ?_ fun hr => isToken_of_isSimple hr ?_, rfl⟩
  · exact fun c hc => (ht c (List.mem_append_left rest hc)).2
  · intro hc
    cases hw
    exact (ht '\\' (by simp [hc])).1 rfl

end Stylesmith.Reference
