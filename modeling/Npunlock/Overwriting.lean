import Npunlock.WordBuffer

/-!
# Words written into a buffer

`overwrite` puts some words in place of those of a buffer. Writes that stand side by side are one
write, whichever is made first (`overwrite_behind`, `overwrite_before`).
-/

namespace Npunlock

variable {buffer words : List Word} {position : ℕ}

/-- The buffer with some words in place of its own. -/
def overwrite (buffer : List Word) (position : ℕ) (words : List Word) : List Word :=
  buffer.take position ++ words ++ buffer.drop (position + words.length)

theorem length_overwrite (h : position + words.length ≤ buffer.length) :
    (overwrite buffer position words).length = buffer.length := by
  simp only [overwrite, List.length_append, List.length_take, List.length_drop]
  omega

@[simp] theorem overwrite_nil (buffer : List Word) (position : ℕ) :
    overwrite buffer position [] = buffer := by
  simp [overwrite]

theorem drop_overwrite (h : position + words.length ≤ buffer.length) :
    (overwrite buffer position words).drop position =
      words ++ buffer.drop (position + words.length) := by
  have hlength : (buffer.take position).length = position := by
    rw [List.length_take]
    omega
  rw [overwrite, List.append_assoc, List.drop_left' hlength]

theorem drop_overwrite_of_le {n : ℕ} (h : position + words.length ≤ buffer.length)
    (hn : position + words.length ≤ n) :
    (overwrite buffer position words).drop n = buffer.drop n := by
  obtain ⟨m, rfl⟩ := Nat.exists_eq_add_of_le hn
  have hlength : (buffer.take position ++ words).length = position + words.length := by
    rw [List.length_append, List.length_take]
    omega
  rw [overwrite, ← List.drop_drop, List.drop_left' hlength, List.drop_drop]

theorem take_overwrite_of_le {n : ℕ} (h : position ≤ buffer.length) (hn : n ≤ position) :
    (overwrite buffer position words).take n = buffer.take n := by
  have hlength : n ≤ (buffer.take position).length := by
    rw [List.length_take]
    omega
  rw [overwrite, List.append_assoc, List.take_append_of_le_length hlength, List.take_take,
    min_eq_left hn]

/-- Words that are written behind others. -/
theorem overwrite_behind {others : List Word} (h : position + words.length ≤ buffer.length) :
    overwrite (overwrite buffer position words) (position + words.length) others =
      overwrite buffer position (words ++ others) := by
  have hlength : (buffer.take position ++ words).length = position + words.length := by
    rw [List.length_append, List.length_take]
    omega
  have hrest : (buffer.take position ++ words ++ buffer.drop (position + words.length)).drop
      (position + words.length + others.length) =
        buffer.drop (position + (words.length + others.length)) := by
    rw [← List.drop_drop, List.drop_left' hlength, List.drop_drop, Nat.add_assoc]
  unfold overwrite
  rw [hrest, List.take_left' hlength, List.length_append, List.append_assoc (buffer.take position)]

/-- Words that are written before others. -/
theorem overwrite_before {others : List Word}
    (h : position + words.length + others.length ≤ buffer.length) :
    overwrite (overwrite buffer (position + words.length) others) position words =
      overwrite buffer position (words ++ others) := by
  have hlength : (buffer.take (position + words.length)).length = position + words.length := by
    rw [List.length_take]
    omega
  unfold overwrite
  rw [List.append_assoc, List.append_assoc, List.take_append_of_le_length (by omega),
    List.take_take, min_eq_left (Nat.le_add_right _ _), List.drop_append_of_le_length (by omega),
    List.drop_eq_nil_of_le hlength.le, List.nil_append, List.length_append, List.append_assoc,
    List.append_assoc, Nat.add_assoc]

/-- A header, what follows it and what ends it, written in the order end, header, middle. -/
theorem overwrite_parts (buffer header middle last : List Word)
    (h : header.length + middle.length + last.length ≤ buffer.length) :
    overwrite (overwrite (overwrite buffer (header.length + middle.length) last) 0 header)
        header.length middle =
      header ++ middle ++ last ++ buffer.drop (header.length + middle.length + last.length) := by
  have hlast : header.length + middle.length + last.length ≤ buffer.length := h
  have hbehind := @overwrite_behind (overwrite buffer (header.length + middle.length) last) header 0
    middle (by rw [length_overwrite hlast]; omega)
  have hbefore := @overwrite_before buffer (header ++ middle) 0 last
    (by rw [List.length_append]; omega)
  rw [Nat.zero_add] at hbehind hbefore
  rw [List.length_append] at hbefore
  rw [hbehind, hbefore, overwrite, List.take_zero, List.nil_append, Nat.zero_add,
    List.length_append, List.length_append]

theorem writeWord_eq_overwrite (h : position < buffer.length) (word : Word) :
    writeWord buffer position word = .ok (overwrite buffer position [word]) := by
  rw [writeWord_of_lt h, overwrite, List.set_eq_take_append_cons_drop, if_pos h,
    List.append_assoc]
  rfl

theorem writeWords_eq : ∀ (words : List Word) {buffer : List Word} {position : ℕ},
    position + words.length ≤ buffer.length →
      writeWords buffer position words = .ok (overwrite buffer position words)
  | [], buffer, position, _ => by rw [writeWords, overwrite_nil]
  | word :: words, buffer, position, h => by
    rw [List.length_cons] at h
    have hone : position + [word].length ≤ buffer.length := by
      rw [List.length_singleton]
      omega
    rw [writeWords, writeWord_eq_overwrite (by omega), ok_bind,
      writeWords_eq words (by rw [length_overwrite hone]; omega)]
    exact congrArg _ (overwrite_behind hone)

/-- A loop that clears some words. -/
theorem clear_eq_overwrite {first last : ℕ} (hle : first ≤ last) (h : last ≤ buffer.length) :
    forRange first last buffer (fun value output => writeWord output value 0) =
      .ok (overwrite buffer first (List.replicate (last - first) 0)) := by
  have hloop : Returns (forRange first last buffer fun value output => writeWord output value 0)
      fun after => after = overwrite buffer first (List.replicate (last - first) 0) := by
    refine Meets.forRange (fun value (after : List Word) =>
      after = overwrite buffer first (List.replicate (value - first) 0)) hle (by simp) ?_
    rintro value after hfirst hlast rfl
    have hinside : first + (List.replicate (value - first) (0 : Word)).length ≤ buffer.length := by
      rw [List.length_replicate]
      omega
    have hvalue : value = first + (List.replicate (value - first) (0 : Word)).length := by
      rw [List.length_replicate]
      omega
    refine Returns.of_eq (writeWord_eq_overwrite (by rw [length_overwrite hinside]; omega) 0) ?_
    conv_lhs => rw [hvalue]
    rw [← hvalue]
    rw [show value + 1 - first = value - first + 1 by omega, List.replicate_succ',
      ← overwrite_behind hinside, ← hvalue]
  obtain ⟨after, hafter, rfl⟩ := hloop.exists_ok
  exact hafter

end Npunlock
