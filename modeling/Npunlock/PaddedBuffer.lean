import Mathlib.Data.List.GetD
import Npunlock.WordBuffer

/-!
# Padded buffers

Buffers of a fixed size that begin with some words and are zero behind them. A kernel that
clears its output and then writes it from the front on keeps it padded : every write at
the end of the words appends to them (`writeWords_paddedTo`), and so does a loop whose
rounds append (`forRange_paddedTo`).
-/

namespace Npunlock

/-- The words, and zeros behind them. -/
def paddedTo (size : ℕ) (words : List Word) : List Word :=
  words ++ List.replicate (size - words.length) 0

/-- `output[index] = 0.0f` for the first words. Zero is the word zero in either format. -/
def clearWords (size : ℕ) (output : List Word) : Except KernelHalt (List Word) :=
  forRange 0 size output fun index output => writeWord output index 0

variable {size : ℕ} {words : List Word}

theorem length_paddedTo (h : words.length ≤ size) : (paddedTo size words).length = size := by
  rw [paddedTo, List.length_append, List.length_replicate]
  omega

theorem getElem?_paddedTo {i : ℕ} (h : i < words.length) :
    (paddedTo size words)[i]? = words[i]? :=
  List.getElem?_append_left h

theorem writeWord_paddedTo (h : words.length < size) (word : Word) :
    writeWord (paddedTo size words) words.length word = .ok (paddedTo size (words ++ [word])) := by
  rw [writeWord_of_lt (by rw [length_paddedTo h.le]; exact h)]
  obtain ⟨n, hn⟩ : ∃ n, size - words.length = n + 1 := Nat.exists_eq_succ_of_ne_zero (by omega)
  have hn' : size - (words.length + 1) = n := by omega
  rw [paddedTo, paddedTo, List.length_append, List.length_singleton, hn, hn', List.replicate_succ,
    List.set_append_right _ _ le_rfl, Nat.sub_self, List.set_cons_zero, List.append_assoc]
  rfl

/-- A write among the words. -/
theorem writeWord_paddedTo_of_lt {i : ℕ} (hi : i < words.length) (h : words.length ≤ size)
    (word : Word) :
    writeWord (paddedTo size words) i word = .ok (paddedTo size (words.set i word)) := by
  rw [writeWord_of_lt (by rw [length_paddedTo h]; omega), paddedTo, paddedTo, List.length_set,
    List.set_append_left _ _ hi]

/-- Zeros at the end of the words are zeros behind them. -/
theorem paddedTo_append_zeros {n : ℕ} (h : words.length + n ≤ size) :
    paddedTo size (words ++ List.replicate n 0) = paddedTo size words := by
  rw [paddedTo, paddedTo, List.append_assoc, ← List.replicate_add, List.length_append,
    List.length_replicate, show n + (size - (words.length + n)) = size - words.length by omega]

theorem writeWords_paddedTo : ∀ (new words : List Word), words.length + new.length ≤ size →
    writeWords (paddedTo size words) words.length new = .ok (paddedTo size (words ++ new))
  | [], words, _ => by
    rw [List.append_nil]
    rfl
  | word :: new, words, h => by
    rw [List.length_cons] at h
    have hrest := writeWords_paddedTo new (words ++ [word])
      (by rw [List.length_append, List.length_singleton]; omega)
    rw [List.length_append, List.length_singleton, List.append_assoc] at hrest
    rw [writeWords, writeWord_paddedTo (by omega), ok_bind]
    exact hrest

theorem clearWords_eq {output : List Word} (h : output.length = size) :
    clearWords size output = .ok (paddedTo size []) := by
  have hloop : Returns (clearWords size output) fun after =>
      after = List.replicate size 0 ++ output.drop size := by
    refine Meets.forRange (fun index (after : List Word) =>
      after = List.replicate index 0 ++ output.drop index) (Nat.zero_le _) (by simp) ?_
    rintro index after _ hindex rfl
    have hlt : index < output.length := by rwa [h]
    have hinside : index < (List.replicate index (0 : Word) ++ output.drop index).length := by
      rw [List.length_append, List.length_replicate, List.length_drop]
      omega
    refine Returns.of_eq (writeWord_of_lt hinside 0) ?_
    rw [List.set_append_right _ _ (by rw [List.length_replicate]), List.length_replicate,
      Nat.sub_self, List.drop_eq_getElem_cons hlt, List.set_cons_zero, List.replicate_succ',
      List.append_assoc]
    rfl
  obtain ⟨after, hafter, heq⟩ := hloop.exists_ok
  rw [hafter, heq, List.drop_eq_nil_of_le h.le, List.append_nil]
  rfl

/-- A loop whose rounds append records of one width. -/
theorem forRange_paddedTo (record : ℕ → List Word)
    {act : ℕ → List Word → Except KernelHalt (List Word)} {width count : ℕ}
    (hwidth : ∀ i, (record i).length = width)
    (hact : ∀ i < count, ∀ before : List Word, before.length = words.length + i * width →
      act i (paddedTo size before) = .ok (paddedTo size (before ++ record i))) :
    forRange 0 count (paddedTo size words) act =
      .ok (paddedTo size (words ++ (List.range count).flatMap record)) := by
  have hloop : Returns (forRange 0 count (paddedTo size words) act) fun after =>
      after = paddedTo size (words ++ (List.range count).flatMap record) := by
    refine Meets.forRange (fun index (after : List Word) =>
      after = paddedTo size (words ++ (List.range index).flatMap record)) (Nat.zero_le _)
      (by simp) ?_
    rintro index after _ hindex rfl
    have hlength : ((List.range index).flatMap record).length = index * width := by
      rw [List.length_flatMap, List.map_congr_left (g := fun _ => width) fun i _ => hwidth i,
        List.map_const', List.sum_replicate_nat, List.length_range]
    refine Returns.of_eq (hact index hindex _ (by rw [List.length_append, hlength])) ?_
    rw [List.range_succ, List.flatMap_append, List.flatMap_singleton, List.append_assoc]
  obtain ⟨after, hafter, rfl⟩ := hloop.exists_ok
  exact hafter

/-- A loop over the indices of a list visits its entries. -/
theorem flatMap_range_getD (record : Word → List Word) (words : List Word) :
    (List.range words.length).flatMap (fun i => record (words.getD i 0)) =
      words.flatMap record := by
  have hentries : (List.range words.length).map (fun i => words.getD i 0) = words := by
    refine List.ext_getElem (by simp) fun i hi hi' => ?_
    rw [List.getElem_map, List.getElem_range, List.getD_eq_getElem _ _ hi']
  conv_rhs => rw [← hentries, List.flatMap_map]

/-! ## Rows -/

section Rows

variable {width : ℕ} {rows : List (List Word)}

theorem length_flatten_rows {width : ℕ} {rows : List (List Word)}
    (h : ∀ row ∈ rows, row.length = width) : rows.flatten.length = rows.length * width := by
  rw [List.length_flatten, List.map_congr_left (g := fun _ => width) h, List.map_const',
    List.sum_replicate_nat]

/-- An entry of a list of rows of one width. -/
theorem getElem?_flatten_rows {α : Type} {width : ℕ} (rest : List α) : ∀ {rows : List (List α)}
    {i j : ℕ} (_ : ∀ row ∈ rows, row.length = width) (hi : i < rows.length) (_ : j < width),
    (rows.flatten ++ rest)[i * width + j]? = rows[i][j]?
  | [], _, _, _, hi, _ => absurd hi (Nat.not_lt_zero _)
  | row :: rows, 0, j, hrows, _, hj => by
    have hrow := hrows row List.mem_cons_self
    rw [List.flatten_cons, List.append_assoc, Nat.zero_mul, Nat.zero_add]
    exact List.getElem?_append_left (by omega)
  | row :: rows, i + 1, j, hrows, hi, hj => by
    have hrow := hrows row List.mem_cons_self
    have hrest := getElem?_flatten_rows rest (i := i) (j := j)
      (fun other hother => hrows other (List.mem_cons_of_mem row hother))
      (Nat.lt_of_succ_lt_succ hi) hj
    rw [List.flatten_cons, List.append_assoc, Nat.succ_mul,
      List.getElem?_append_right (by omega), hrow,
      show i * width + width + j - width = i * width + j by omega]
    exact hrest

/-- The rows lie one after the other from `start` on. -/
def HoldsRows (buffer : List Word) (start width : ℕ) (rows : List (List Word)) : Prop :=
  ∀ row (hrow : row < rows.length), ∀ column < width,
    buffer[start + row * width + column]? = rows[row][column]?

theorem holdsRows_paddedTo {header : List Word} (hrows : ∀ row ∈ rows, row.length = width)
    (size : ℕ) :
    HoldsRows (paddedTo size (header ++ rows.flatten)) header.length width rows := by
  intro row hrow column hcolumn
  have hlength := length_flatten_rows hrows
  have hle : (row + 1) * width ≤ rows.length * width := Nat.mul_le_mul_right _ hrow
  rw [Nat.succ_mul] at hle
  rw [getElem?_paddedTo (by rw [List.length_append]; omega),
    List.getElem?_append_right (by omega), Nat.add_assoc, Nat.add_sub_cancel_left]
  have hentry := getElem?_flatten_rows [] hrows hrow hcolumn
  rwa [List.append_nil] at hentry

end Rows

end Npunlock
