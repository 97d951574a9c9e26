import Mathlib.Data.List.DropRight
import Stylesmith.Text.Blank

set_option autoImplicit false

namespace Stylesmith.Text

variable {drop : Char → Bool} {t e : Text}

theorem not_drop_of_dropWhile (h : t.dropWhile drop = e) : ∀ c ∈ e.head?, drop c = false := by
  intro c hc
  have hhead := List.head?_dropWhile_not drop t
  rw [h, hc] at hhead
  simpa using hhead

theorem dropWhile_append_of_not_drop {l r : Text} (hl : ∀ c ∈ l, drop c = true)
    (hr : ∀ c ∈ r.head?, drop c = false) : (l ++ r).dropWhile drop = r := by
  rw [List.dropWhile_append_of_pos hl]
  cases r with
  | nil => rfl
  | cons c r => exact List.dropWhile_cons_of_neg (by rw [hr c rfl]; exact Bool.false_ne_true)

/-- Trimming takes off what is to be dropped at both ends and leaves nothing of it there. -/
theorem trimWhile_eq_iff : trimWhile drop t = e ↔ ∃ l r : Text, t = l ++ (e ++ r) ∧
    (∀ c ∈ l ++ r, drop c = true) ∧ (∀ c ∈ e.head?, drop c = false) ∧
      ∀ c ∈ e.getLast?, drop c = false := by
  constructor
  · rintro rfl
    have hsplit : trimWhile drop t ++ (t.dropWhile drop).rtakeWhile drop = t.dropWhile drop :=
      List.rdropWhile_append_rtakeWhile
    refine ⟨t.takeWhile drop, (t.dropWhile drop).rtakeWhile drop, ?_, ?_, ?_, ?_⟩
    · rw [hsplit, List.takeWhile_append_dropWhile]
    · intro c hc
      rcases List.mem_append.1 hc with hc | hc
      · exact List.mem_takeWhile_imp hc
      · exact List.mem_rtakeWhile_imp hc
    · intro c hc
      refine not_drop_of_dropWhile hsplit.symm c ?_
      rw [List.head?_append, Option.mem_def.1 hc]
      rfl
    · rw [trimWhile, trimEndWhile, List.getLast?_reverse]
      exact not_drop_of_dropWhile rfl
  · rintro ⟨l, r, rfl, hall, hhead, hlast⟩
    have hr : ∀ c ∈ r.reverse, drop c = true := fun c hc =>
      hall c (List.mem_append_right l (List.mem_reverse.1 hc))
    have hend : trimEndWhile drop (e ++ r) = e := by
      rw [trimEndWhile, List.reverse_append, dropWhile_append_of_not_drop hr, List.reverse_reverse]
      rwa [List.head?_reverse]
    rw [trimWhile, List.dropWhile_append_of_pos fun c hc => hall c (List.mem_append_left r hc)]
    cases e with
    | nil =>
      have hnil : ([] ++ r).dropWhile drop = [] :=
        List.dropWhile_eq_nil_iff.2 fun c hc => hall c (List.mem_append_right l hc)
      rw [hnil]
      rfl
    | cons c e =>
      have hkeep := dropWhile_append_of_not_drop (l := []) (r := c :: e ++ r)
        (fun d hd => absurd hd List.not_mem_nil) hhead
      rw [List.nil_append] at hkeep
      rw [hkeep, hend]

end Stylesmith.Text
