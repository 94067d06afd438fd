import Mathlib.Data.List.Basic

/-!
# Lines of a file

A file is a list over some alphabet, in which a separator ends every line. A line is read back only
if it does not contain the separator; a text that contains it is read back as the lines it consists
of.
-/

namespace SourceMaster.Lines

open List

variable {α : Type} [DecidableEq α] (sep : α)

def linesFrom (cur : List α) : List α → List (List α)
  | [] => if cur = [] then [] else [cur]
  | b :: s => if b = sep then cur :: linesFrom [] s else linesFrom (cur ++ [b]) s

def lines (s : List α) : List (List α) := linesFrom sep [] s

def segments (t : List α) : List (List α) := lines sep (t ++ [sep])

variable {sep}

variable (t : List α) {l : List α}

lemma linesFrom_append (rest : List α) : ∀ cur : List α,
    linesFrom sep cur (t ++ sep :: rest) = linesFrom sep cur (t ++ [sep]) ++ lines sep rest := by
  induction t with
  | nil => intro cur; simp [linesFrom, lines]
  | cons b t ih =>
    intro cur
    rw [cons_append, cons_append]
    unfold linesFrom
    split_ifs
    · rw [ih, cons_append]
    · exact ih _

lemma lines_text (rest : List α) :
    lines sep (t ++ sep :: rest) = segments sep t ++ lines sep rest :=
  linesFrom_append t rest []

lemma linesFrom_line (h : sep ∉ l) : ∀ cur : List α, linesFrom sep cur (l ++ [sep]) =
    [cur ++ l] := by
  induction l with
  | nil => intro cur; simp [linesFrom]
  | cons b l ih =>
    intro cur
    have hb : b ≠ sep := fun hb => h (hb ▸ mem_cons_self)
    rw [cons_append, linesFrom, if_neg hb, ih (fun h' => h (mem_cons_of_mem b h')), append_assoc]
    rfl

lemma segments_line (h : sep ∉ l) : segments sep l = [l] := linesFrom_line h []

lemma lines_line (h : sep ∉ l) (rest : List α) :
    lines sep (l ++ sep :: rest) = l :: lines sep rest := by
  rw [lines_text, segments_line h]
  rfl

lemma length_linesFrom : ∀ cur : List α,
    (linesFrom sep cur (t ++ [sep])).length = t.count sep + 1 := by
  induction t with
  | nil => intro cur; simp [linesFrom]
  | cons b t ih =>
    intro cur
    rw [cons_append, linesFrom]
    split_ifs with hb
    · rw [length_cons, ih, hb, count_cons_self]
    · rw [ih, count_cons_of_ne hb]

lemma length_segments : (segments sep t).length = t.count sep + 1 := length_linesFrom t []

lemma linesFrom_head (t : List α) : ∀ cur : List α, ∃ ls,
    linesFrom sep cur (t ++ [sep]) = (cur ++ t.takeWhile (· ≠ sep)) :: ls := by
  induction t with
  | nil => intro cur; exact ⟨[], by simp [linesFrom]⟩
  | cons b t ih =>
    intro cur
    rw [cons_append, linesFrom]
    split_ifs with hb
    · exact ⟨_, by rw [takeWhile_cons_of_neg (by simp [hb]), append_nil]⟩
    · obtain ⟨ls, hls⟩ := ih (cur ++ [b])
      exact ⟨ls, by rw [hls, takeWhile_cons_of_pos (by simp [hb]), append_assoc]; rfl⟩

/-- The first line of a text. -/
theorem segments_head (t : List α) : ∃ ls, segments sep t = t.takeWhile (· ≠ sep) :: ls :=
    linesFrom_head t []

end SourceMaster.Lines
