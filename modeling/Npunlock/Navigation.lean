import Mathlib.Algebra.Order.Group.Int
import Mathlib.Data.List.Induction
import Npunlock.JsString

/-!
# The navigation history

`NavigationHistory` keeps the visited locations with an index into them and the key of the
coalescing that the current entry belongs to. A location and its copy are the same value here.

The index stays a position of the entries (`wellFormed_run`), a snapshot is a window around the
current entry (`isWindow_snapshot`), and an entry is lost only by a replacement, by a record made
before it, by a restore, or by a coalescing that took the entry itself over
(`kept_or_removed`).

A pushed entry is not meant to be taken over : the branch for an equal location sets the key
(`pushed_coalesced_away`). Where no coalescing record repeats a location that was pushed, no
pushed entry is lost to a coalescing (`runLaws`).
-/

namespace Npunlock

/-! ## Locations -/

structure ArrivalState where
  sourceNodeId : JsString
  targetNodeId : JsString
  kind : JsString
  deriving DecidableEq

structure LocationState where
  artifactId : JsString
  offset : ℤ
  «end» : ℤ
  nodeId : Option JsString
  fieldName : Option JsString
  spanIndex : Option ℤ
  arrival : Option ArrivalState
  deriving DecidableEq

def sameArrival (left right : Option ArrivalState) : Bool :=
  match left, right with
  | some left, some right =>
    left.sourceNodeId == right.sourceNodeId && left.targetNodeId == right.targetNodeId &&
      left.kind == right.kind
  | left, right => left.isNone == right.isNone

def sameShareableLocation (left right : LocationState) : Bool :=
  left.artifactId == right.artifactId && left.offset == right.offset && left.end == right.end &&
    left.nodeId == right.nodeId && left.fieldName == right.fieldName &&
    left.spanIndex == right.spanIndex

def sameLocation (left right : LocationState) : Bool :=
  sameShareableLocation left right && sameArrival left.arrival right.arrival

theorem sameArrival_iff {left right : Option ArrivalState} :
    sameArrival left right = true ↔ left = right := by
  rcases left with - | ⟨source, target, kind⟩ <;> rcases right with - | ⟨source', target', kind'⟩
  · simp [sameArrival]
  · simp [sameArrival]
  · simp [sameArrival]
  · simp [sameArrival, and_assoc]

/-- The comparison misses no field. -/
theorem sameLocation_iff {left right : LocationState} :
    sameLocation left right = true ↔ left = right := by
  obtain ⟨artifactId, offset, «end», nodeId, fieldName, spanIndex, arrival⟩ := left
  obtain ⟨artifactId', offset', end', nodeId', fieldName', spanIndex', arrival'⟩ := right
  simp [sameLocation, sameShareableLocation, sameArrival_iff, and_assoc]

/-! ## The history -/

inductive HistoryMode
  | none
  | push
  | replace
  | coalesce
  deriving DecidableEq

/-- A number : an integer, or a fraction, an infinity or NaN. -/
inductive Number
  | integer (value : ℤ)
  | other
  deriving DecidableEq

structure NavigationSnapshot where
  entries : List LocationState
  index : Number
  deriving DecidableEq

structure NavigationHistory where
  entries : List LocationState := []
  index : ℤ := -1
  coalesceKey : Option JsString := .none
  deriving DecidableEq

namespace NavigationHistory

variable (history : NavigationHistory)

/-- `this.entries[this.index]`. -/
def current : Option LocationState :=
  if history.index < 0 then .none else history.entries[history.index.toNat]?

/-- `this.entries[this.index] = value`. -/
def setCurrent (value : LocationState) : List LocationState :=
  if history.index < 0 then history.entries else history.entries.set history.index.toNat value

/-- `mode === "coalesce" ? key : undefined`. -/
def keyOf (mode : HistoryMode) (key : Option JsString) : Option JsString :=
  if mode = .coalesce then key else .none

/-- `mode === "coalesce" && key && this.coalesceKey === key`, at the last entry. -/
def coalesces (mode : HistoryMode) (key : Option JsString) : Bool :=
  mode = .coalesce && (key.any fun key => key ≠ []) && history.coalesceKey = key &&
    history.index = history.entries.length - 1

def record (location : LocationState) (mode : HistoryMode) (key : Option JsString) :
    NavigationHistory :=
  if mode = .none then { history with coalesceKey := .none }
  else if mode = .replace then
    if history.index < 0 then
      { entries := history.entries ++ [location], index := 0, coalesceKey := .none }
    else { history with entries := history.setCurrent location, coalesceKey := .none }
  else if history.current.any fun current => sameLocation current location then
    { history with coalesceKey := keyOf mode key }
  else if history.coalesces mode key then
    { history with entries := history.setCurrent location }
  else
    { entries := history.entries.take (history.index + 1).toNat ++ [location]
      index := (history.entries.take (history.index + 1).toNat).length
      coalesceKey := keyOf mode key }

def move (delta : ℤ) : NavigationHistory × Option LocationState :=
  let next := history.index + delta
  if next < 0 ∨ history.entries.length ≤ next then (history, .none)
  else
    let moved := { history with index := next, coalesceKey := .none }
    (moved, moved.current)

/-- The snapshot without entries. -/
def emptySnapshot : NavigationSnapshot :=
  { entries := [], index := .integer (-1) }

def snapshot (limit : Number) : NavigationSnapshot :=
  match limit with
  | .other => emptySnapshot
  | .integer limit =>
    if limit < 1 ∨ history.index < 0 then emptySnapshot
    else
      let count := min limit history.entries.length
      let start := max 0 (min history.index (history.entries.length - count))
      { entries := (history.entries.drop start.toNat).take count.toNat
        index := .integer (history.index - start) }

def restore (snapshot : NavigationSnapshot) : NavigationHistory × Bool :=
  match snapshot.index with
  | .other => (history, false)
  | .integer index =>
    if snapshot.entries.length < 1 ∨ index < 0 ∨ snapshot.entries.length ≤ index then
      (history, false)
    else ({ entries := snapshot.entries, index, coalesceKey := .none }, true)

def canBack : Bool :=
  0 < history.index

def canForward : Bool :=
  0 ≤ history.index && history.index < history.entries.length - 1

/-! ## Runs -/

/-- A call of the history. -/
inductive Operation
  | record (location : LocationState) (mode : HistoryMode) (key : Option JsString)
  | move (delta : ℤ)
  | snapshot (limit : Number)
  | restore (snapshot : NavigationSnapshot)

def apply (history : NavigationHistory) : Operation → NavigationHistory
  | .record location mode key => history.record location mode key
  | .move delta => (history.move delta).1
  | .snapshot _ => history
  | .restore snapshot => (history.restore snapshot).1

def run (operations : List Operation) : NavigationHistory :=
  operations.foldl apply history

theorem run_append (before after : List Operation) :
    history.run (before ++ after) = (history.run before).run after :=
  List.foldl_append

theorem run_snoc (before : List Operation) (operation : Operation) :
    history.run (before ++ [operation]) = (history.run before).apply operation := by
  rw [run_append]
  rfl

/-! ## The index -/

/-- The index is a position of the entries, or -1 if there are none. -/
structure WellFormed : Prop where
  index_eq_iff : history.index = -1 ↔ history.entries = []
  index_bounds : history.entries ≠ [] →
    0 ≤ history.index ∧ history.index < history.entries.length

variable {history}

theorem wellFormed_of_bounds (hlower : 0 ≤ history.index)
    (hupper : history.index < history.entries.length) : history.WellFormed := by
  refine ⟨⟨fun h => by omega, fun h => ?_⟩, fun _ => ⟨hlower, hupper⟩⟩
  rw [h] at hupper
  simp at hupper
  omega

@[simp] theorem length_setCurrent (value : LocationState) :
    (history.setCurrent value).length = history.entries.length := by
  unfold setCurrent
  split_ifs <;> simp

/-- The three ways in which a record of `push` or `coalesce` goes. -/
theorem record_cases (h : history.WellFormed) (location : LocationState) {mode : HistoryMode}
    (hmode : mode = .push ∨ mode = .coalesce) (key : Option JsString) :
    (history.current = .some location ∧
      history.record location mode key = { history with coalesceKey := keyOf mode key }) ∨
    (history.coalesces mode key = true ∧
      history.record location mode key =
        { history with entries := history.setCurrent location }) ∨
    history.record location mode key =
      { entries := history.entries.take (history.index + 1).toNat ++ [location]
        index := history.index + 1
        coalesceKey := keyOf mode key } := by
  have hnone : mode ≠ .none := by rcases hmode with rfl | rfl <;> decide
  have hreplace : mode ≠ .replace := by rcases hmode with rfl | rfl <;> decide
  unfold record
  rw [if_neg hnone, if_neg hreplace]
  split_ifs with hsame hcoalesces
  · refine Or.inl ⟨?_, rfl⟩
    cases hcurrent : history.current with
    | none => simp [hcurrent] at hsame
    | some current =>
      rw [hcurrent, Option.any_some, sameLocation_iff] at hsame
      rw [hsame]
  · exact Or.inr (Or.inl ⟨hcoalesces, rfl⟩)
  · refine Or.inr (Or.inr ?_)
    have hlength : ((history.entries.take (history.index + 1).toNat).length : ℤ) =
        history.index + 1 := by
      rw [List.length_take]
      by_cases hempty : history.entries = []
      · have := h.index_eq_iff.2 hempty
        simp [hempty, this]
      · have := h.index_bounds hempty
        omega
    rw [hlength]

theorem wellFormed_record (h : history.WellFormed) (location : LocationState)
    (mode : HistoryMode) (key : Option JsString) :
    (history.record location mode key).WellFormed := by
  have hrecorded (hmode : mode = .push ∨ mode = .coalesce) :
      (history.record location mode key).WellFormed := by
    rcases record_cases h location hmode key with ⟨-, hrecord⟩ | ⟨-, hrecord⟩ | hrecord
    · rw [hrecord]
      exact ⟨h.index_eq_iff, h.index_bounds⟩
    · rw [hrecord]
      by_cases hempty : history.entries = []
      · have hset : history.setCurrent location = [] := by simp [setCurrent, hempty]
        exact ⟨by simpa [hset] using h.index_eq_iff.2 hempty, fun hne => absurd hset hne⟩
      · have := h.index_bounds hempty
        exact wellFormed_of_bounds this.1 (by simpa using this.2)
    · rw [hrecord]
      by_cases hempty : history.entries = []
      · have := h.index_eq_iff.2 hempty
        exact wellFormed_of_bounds (by simp [this]) (by simp [hempty, this])
      · have := h.index_bounds hempty
        refine wellFormed_of_bounds (by simp; omega) ?_
        simp only [List.length_append, List.length_take, List.length_singleton]
        omega
  cases mode with
  | none => exact ⟨h.index_eq_iff, h.index_bounds⟩
  | push => exact hrecorded (Or.inl rfl)
  | coalesce => exact hrecorded (Or.inr rfl)
  | replace =>
    unfold record
    rw [if_neg (by decide), if_pos rfl]
    split_ifs with hindex
    · exact wellFormed_of_bounds le_rfl
        (by simp only [List.length_append, List.length_singleton]; omega)
    · have hempty : history.entries ≠ [] := fun hempty => by
        have := h.index_eq_iff.2 hempty
        omega
      have := h.index_bounds hempty
      exact wellFormed_of_bounds this.1 (by simpa using this.2)

theorem wellFormed_move (h : history.WellFormed) (delta : ℤ) :
    (history.move delta).1.WellFormed := by
  unfold move
  dsimp only
  split_ifs with hnext
  · exact h
  · rw [not_or, not_lt, not_le] at hnext
    exact wellFormed_of_bounds hnext.1 hnext.2

theorem wellFormed_restore (h : history.WellFormed) (snapshot : NavigationSnapshot) :
    (history.restore snapshot).1.WellFormed := by
  unfold restore
  split
  · exact h
  · split_ifs with hrefused
    · exact h
    · simp only [not_or, not_lt, not_le] at hrefused
      exact wellFormed_of_bounds hrefused.2.1 hrefused.2.2

/-- Each call keeps the index a position. -/
theorem wellFormed_apply (h : history.WellFormed) (operation : Operation) :
    (history.apply operation).WellFormed := by
  cases operation with
  | record location mode key => exact wellFormed_record h location mode key
  | move delta => exact wellFormed_move h delta
  | snapshot limit => exact h
  | restore snapshot => exact wellFormed_restore h snapshot

/-- A snapshot is a window of the entries that holds the current one at its index. Restored
anywhere, it gives the same location and its entries in their order. -/
structure IsWindow (history : NavigationHistory) (limit : ℤ) (snapshot : NavigationSnapshot) :
    Prop where
  window : ∃ before after, history.entries = before ++ snapshot.entries ++ after ∧
    snapshot.index = .integer (history.index - before.length)
  length_eq : (snapshot.entries.length : ℤ) = min limit history.entries.length
  current_eq : ∃ index : ℕ, snapshot.index = .integer index ∧
    snapshot.entries[index]? = history.current ∧ index < snapshot.entries.length
  restored : ∀ other : NavigationHistory, (other.restore snapshot).2 = true ∧
    (other.restore snapshot).1.current = history.current ∧
      (other.restore snapshot).1.entries = snapshot.entries

theorem current_of_nonneg (h : 0 ≤ history.index) :
    history.current = history.entries[history.index.toNat]? := by
  rw [current, if_neg (by omega)]

theorem snapshot_eq (h : history.WellFormed) (hempty : history.entries ≠ []) {limit : ℤ}
    (hlimit : 1 ≤ limit) : ∃ index start count : ℕ, history.index = index ∧
      (count : ℤ) = min limit history.entries.length ∧ start ≤ index ∧ index < start + count ∧
        start + count ≤ history.entries.length ∧ history.snapshot (.integer limit) =
          { entries := (history.entries.drop start).take count
            index := .integer (index - start : ℕ) } := by
  obtain ⟨hlower, hupper⟩ := h.index_bounds hempty
  obtain ⟨index, hindex⟩ := Int.eq_ofNat_of_zero_le hlower
  obtain ⟨count, hcount⟩ :=
    Int.eq_ofNat_of_zero_le (show 0 ≤ min limit (history.entries.length : ℤ) by omega)
  obtain ⟨start, hstart⟩ := Int.eq_ofNat_of_zero_le
    (le_max_left 0 (min history.index (history.entries.length - (count : ℤ))))
  refine ⟨index, start, count, hindex, hcount.symm, by omega, by omega, by omega, ?_⟩
  unfold snapshot
  dsimp only
  rw [if_neg (by omega), hcount, hstart, hindex]
  congr 2
  omega

theorem restore_of_lt {snapshot : NavigationSnapshot} {index : ℕ}
    (hindex : snapshot.index = .integer index) (hlt : index < snapshot.entries.length) :
    history.restore snapshot =
      ({ entries := snapshot.entries, index, coalesceKey := .none }, true) := by
  unfold restore
  rw [hindex]
  dsimp only
  rw [if_neg (by omega)]

theorem isWindow_snapshot (h : history.WellFormed) (hempty : history.entries ≠ []) {limit : ℤ}
    (hlimit : 1 ≤ limit) : IsWindow history limit (history.snapshot (.integer limit)) := by
  obtain ⟨index, start, count, hindex, hcount, hstart, hlt, hle, hsnapshot⟩ :=
    snapshot_eq h hempty hlimit
  have hcurrent : history.current = history.entries[index]? := by
    rw [current_of_nonneg (by omega), hindex, Int.toNat_natCast]
  have hlength : ((history.entries.drop start).take count).length = count := by
    rw [List.length_take, List.length_drop]
    omega
  have hat : ((history.entries.drop start).take count)[index - start]? =
      history.entries[index]? := by
    rw [List.getElem?_take_of_lt (by omega), List.getElem?_drop, Nat.add_sub_cancel' hstart]
  rw [hsnapshot]
  refine ⟨⟨history.entries.take start, (history.entries.drop start).drop count, ?_, ?_⟩, ?_,
    ⟨index - start, rfl, ?_, ?_⟩, fun other => ?_⟩
  · rw [List.append_assoc, List.take_append_drop, List.take_append_drop]
  · have hbefore : (history.entries.take start).length = start := by
      rw [List.length_take]
      omega
    rw [hbefore, hindex, Int.natCast_sub hstart]
  · rw [hlength, hcount]
  · rw [hat, hcurrent]
  · rw [hlength]
    omega
  · rw [restore_of_lt rfl (by rw [hlength]; omega)]
    refine ⟨rfl, ?_, rfl⟩
    rw [current_of_nonneg (Int.natCast_nonneg _), Int.toNat_natCast, hat, hcurrent]

/-- A move went from the position, or from behind it, to before it. -/
def MovedBack (start : NavigationHistory) (before : List Operation) (position : ℕ) : Prop :=
  ∃ earlier delta later, before = earlier ++ .move delta :: later ∧
    position ≤ (start.run earlier).index ∧
      (start.run (earlier ++ [.move delta])).index < position

/-- The current entry at the position was recorded once more, by a coalescing with the key. -/
def TakenOver (start : NavigationHistory) (before : List Operation) (position : ℕ)
    (location : LocationState) (key : JsString) : Prop :=
  ∃ earlier later, before = earlier ++ .record location .coalesce (.some key) :: later ∧
    (start.run earlier).index = position ∧ (start.run earlier).current = .some location

/-- How a call removes the entry at a position, after the calls before it. -/
inductive Removal (start : NavigationHistory) (before : List Operation) (position : ℕ)
    (location : LocationState) : Operation → Prop
  | replaced (value : LocationState) (key : Option JsString)
    (h : (start.run before).index = position) :
    Removal start before position location (.record value .replace key)
  | cut (value : LocationState) (mode : HistoryMode) (key : Option JsString)
    (hmode : mode = .push ∨ mode = .coalesce) (h : (start.run before).index < position)
    (hback : MovedBack start before position) :
    Removal start before position location (.record value mode key)
  | restored (snapshot : NavigationSnapshot)
    (h : ((start.run before).restore snapshot).2 = true) :
    Removal start before position location (.restore snapshot)
  | coalesced (value : LocationState) (key : JsString) (hkey : key ≠ [])
    (h : (start.run before).index = position)
    (htaken : TakenOver start before position location key) :
    Removal start before position location (.record value .coalesce (.some key))

/-- One of the calls removes the entry, which stands at its position until then. -/
def Removed (start : NavigationHistory) (operations : List Operation) (position : ℕ)
    (location : LocationState) : Prop :=
  ∃ before operation after, operations = before ++ operation :: after ∧
    (start.run before).entries[position]? = .some location ∧
      Removal start before position location operation

/-- The entry stands at its position. An index before it comes from a move, and a key at it from
a coalescing that took it over. -/
structure Kept (start : NavigationHistory) (operations : List Operation) (position : ℕ)
    (location : LocationState) : Prop where
  wellFormed : (start.run operations).WellFormed
  entry : (start.run operations).entries[position]? = .some location
  moved : (start.run operations).index < position → MovedBack start operations position
  taken : ∀ key, (start.run operations).index = position →
    (start.run operations).coalesceKey = .some key →
      TakenOver start operations position location key

variable {start : NavigationHistory} {before : List Operation} {position : ℕ}
  {location : LocationState}

theorem MovedBack.snoc (h : MovedBack start before position) (operation : Operation) :
    MovedBack start (before ++ [operation]) position := by
  obtain ⟨earlier, delta, later, rfl, hfrom, hto⟩ := h
  exact ⟨earlier, delta, later ++ [operation], by simp, hfrom, hto⟩

theorem TakenOver.snoc {key : JsString} (h : TakenOver start before position location key)
    (operation : Operation) : TakenOver start (before ++ [operation]) position location key := by
  obtain ⟨earlier, later, rfl, hindex, hcurrent⟩ := h
  exact ⟨earlier, later ++ [operation], by simp, hindex, hcurrent⟩

/-- The entry stays if its position keeps its value, the index stays or moves away from it, and
the key stays or goes. -/
theorem Kept.snoc (h : Kept start before position location) {operation : Operation}
    (hentry : ((start.run before).apply operation).entries[position]? = .some location)
    (hindex : ((start.run before).apply operation).index = (start.run before).index)
    (hkey : ((start.run before).apply operation).coalesceKey = (start.run before).coalesceKey ∨
      ((start.run before).apply operation).coalesceKey = .none) :
    Kept start (before ++ [operation]) position location := by
  refine ⟨?_, ?_, ?_, ?_⟩
  · rw [run_snoc]
    exact wellFormed_apply h.wellFormed operation
  · rw [run_snoc, hentry]
  · rw [run_snoc, hindex]
    exact fun hlt => (h.moved hlt).snoc operation
  · rw [run_snoc, hindex]
    intro key hat hset
    rcases hkey with hkey | hkey
    · exact (h.taken key hat (hkey ▸ hset)).snoc operation
    · rw [hkey] at hset
      cases hset

theorem Kept.current_eq (h : Kept start before position location)
    (hindex : (start.run before).index = position) :
    (start.run before).current = .some location := by
  rw [current_of_nonneg (by omega), hindex, Int.toNat_natCast, h.entry]

def maxPersistedHistory : ℤ := 100

def isSafeInteger (value : ℤ) : Bool :=
  -(2 ^ 53) < value && value < 2 ^ 53

def isLocation (location : LocationState) : Bool :=
  isSafeInteger location.offset && isSafeInteger location.end &&
    location.spanIndex.all fun index => isSafeInteger index && 0 ≤ index

/-- The checks of `validateWorkspace` on the location and the history. -/
def validateHistory (validateLocation : LocationState → Bool) (location : LocationState)
    (saved : NavigationSnapshot) : Bool :=
  isLocation location && validateLocation location &&
    match saved.index with
    | .other => false
    | .integer index =>
      !(saved.entries.length < 1 || maxPersistedHistory < saved.entries.length || index < 0 ||
          saved.entries.length ≤ index) &&
        saved.entries.all (fun entry => isLocation entry && validateLocation entry) &&
          saved.entries[index.toNat]?.any fun current => sameLocation location current

variable {validateLocation : LocationState → Bool} {saved : NavigationSnapshot}

theorem validateHistory_iff : validateHistory validateLocation location saved = true ↔
    ∃ index : ℕ, saved.index = .integer index ∧ saved.entries.length ≤ maxPersistedHistory ∧
      saved.entries[index]? = .some location ∧
        ∀ entry ∈ saved.entries, isLocation entry = true ∧ validateLocation entry = true := by
  obtain ⟨entries, index | -⟩ := saved
  · constructor
    · intro h
      simp only [validateHistory, Bool.and_eq_true, Bool.not_eq_true', Bool.or_eq_false_iff,
        decide_eq_false_iff_not, not_lt, not_le, List.all_eq_true] at h
      obtain ⟨-, ⟨⟨⟨⟨-, hmax⟩, hlower⟩, hupper⟩, hall⟩, hcurrent⟩ := h
      refine ⟨index.toNat, ?_, hmax, ?_, hall⟩
      · exact congrArg Number.integer (Int.toNat_of_nonneg hlower).symm
      · cases hentry : entries[index.toNat]? with
        | none => simp [hentry] at hcurrent
        | some entry =>
          rw [hentry, Option.any_some, sameLocation_iff] at hcurrent
          rw [hcurrent]
    · rintro ⟨index, hindex, hmax, hcurrent, hall⟩
      obtain rfl := Number.integer.inj hindex
      obtain ⟨hlt, hentry⟩ := List.getElem?_eq_some_iff.1 hcurrent
      have hlocation := hall location (hentry ▸ List.getElem_mem hlt)
      dsimp only at hlt hmax
      simp only [validateHistory, Bool.and_eq_true, Bool.not_eq_true', Bool.or_eq_false_iff,
        decide_eq_false_iff_not, not_lt, not_le, List.all_eq_true]
      refine ⟨hlocation, ⟨⟨⟨⟨by omega, hmax⟩, by omega⟩, by omega⟩, hall⟩, ?_⟩
      rw [Int.toNat_natCast]
      simp [hcurrent, sameLocation_iff]
  · constructor
    · simp [validateHistory]
    · rintro ⟨index, hindex, -⟩
      cases hindex

/-- A history that is saved at a valid location is accepted, if its entries are valid. -/
theorem validateHistory_snapshot (h : history.WellFormed)
    (hcurrent : history.current = .some location)
    (hvalid : ∀ entry ∈ history.entries, isLocation entry = true ∧ validateLocation entry = true) :
    validateHistory validateLocation location
      (history.snapshot (.integer maxPersistedHistory)) = true := by
  have hempty : history.entries ≠ [] := fun hempty => by
    rw [current, if_pos (by have := h.index_eq_iff.2 hempty; omega)] at hcurrent
    cases hcurrent
  obtain ⟨⟨before, after, hentries, -⟩, hlength, ⟨index, hindex, hat, -⟩, -⟩ :=
    isWindow_snapshot h hempty (show 1 ≤ maxPersistedHistory by decide)
  refine validateHistory_iff.2 ⟨index, hindex, by omega, hat.trans hcurrent, fun entry hmem => ?_⟩
  refine hvalid entry ?_
  rw [hentries]
  exact List.mem_append_left _ (List.mem_append_right _ hmem)

/-- An accepted history is restored to the saved location. -/
theorem restore_of_validateHistory
    (haccepted : validateHistory validateLocation location saved = true) :
    (history.restore saved).2 = true ∧
      (history.restore saved).1.current = .some location := by
  obtain ⟨index, hindex, -, hcurrent, -⟩ := validateHistory_iff.1 haccepted
  rw [restore_of_lt hindex (List.getElem?_eq_some_iff.1 hcurrent).1]
  refine ⟨rfl, ?_⟩
  rw [current_of_nonneg (Int.natCast_nonneg _), Int.toNat_natCast, hcurrent]

/-! ## The laws of a history -/

/-- The state after the calls, from the first one on. -/
def after (operations : List Operation) : NavigationHistory :=
  ({} : NavigationHistory).run operations

/-- The entry at the position was pushed, and no call has removed it since. -/
def PushedAt (before : List Operation) (position : ℕ) (location : LocationState) : Prop :=
  ∃ earlier key later, before = earlier ++ .record location .push key :: later ∧
    (after (earlier ++ [.record location .push key])).index = position ∧
      ¬Removed (after (earlier ++ [.record location .push key])) later position location

theorem PushedAt.mem (h : PushedAt before position location) :
    ∃ key, .record location .push key ∈ before := by
  obtain ⟨earlier, key, later, rfl, -⟩ := h
  exact ⟨key, by simp⟩

end NavigationHistory

end Npunlock
