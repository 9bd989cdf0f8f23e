import Mathlib.Data.List.TakeWhile
import Npunlock.Common
import Npunlock.Messages

/-!
# Worker messages

What the two worker protocols share : the integer fields of `worker_protocol.h`, the
read of a whole request from the input pipe (`worker_io.c`), and the statuses that the
parent process returns for a worker.

Integers have the width of the source's own types, so a field holds every value of its
type. A C string is the list of its bytes before the zero.
-/

namespace Npunlock

/-! ## Fields -/

/-- `npunlock_worker_load_u32` at an offset. -/
def workerLoadU32 (data : List UInt8) (offset : ℕ) : UInt32 :=
  UInt32.ofNat (loadField data offset 4)

/-- `npunlock_worker_load_u64` at an offset. -/
def workerLoadU64 (data : List UInt8) (offset : ℕ) : UInt64 :=
  UInt64.ofNat (loadField data offset 8)

/-- The bytes that `npunlock_worker_store_u32` writes. -/
def workerStoreU32 (value : UInt32) : List UInt8 :=
  fieldBytes 4 value.toNat

/-- The bytes that `npunlock_worker_store_u64` writes. -/
def workerStoreU64 (value : UInt64) : List UInt8 :=
  fieldBytes 8 value.toNat

@[simp] theorem length_workerStoreU32 (value : UInt32) : (workerStoreU32 value).length = 4 :=
  length_fieldBytes 4 _

@[simp] theorem length_workerStoreU64 (value : UInt64) : (workerStoreU64 value).length = 8 :=
  length_fieldBytes 8 _

theorem workerStoreU32_zero : workerStoreU32 0 = List.replicate 4 0 := by
  decide

theorem workerStoreU64_zero : workerStoreU64 0 = List.replicate 8 0 := by
  decide

@[simp] theorem workerLoadU32_front (value : UInt32) (rest : List UInt8) :
    workerLoadU32 (workerStoreU32 value ++ rest) 0 = value := by
  rw [workerLoadU32, workerStoreU32, loadField_fieldBytes,
    Nat.mod_eq_of_lt (by simpa using value.toNat_lt), UInt32.ofNat_toNat]

@[simp] theorem workerLoadU32_store (value : UInt32) :
    workerLoadU32 (workerStoreU32 value) 0 = value := by
  simpa using workerLoadU32_front value []

@[simp] theorem workerLoadU64_front (value : UInt64) (rest : List UInt8) :
    workerLoadU64 (workerStoreU64 value ++ rest) 0 = value := by
  rw [workerLoadU64, workerStoreU64, loadField_fieldBytes,
    Nat.mod_eq_of_lt (by simpa using value.toNat_lt), UInt64.ofNat_toNat]

/-- A field behind a 32-bit field. -/
@[simp] theorem workerLoadU32_add_four (value : UInt32) (rest : List UInt8) (offset : ℕ) :
    workerLoadU32 (workerStoreU32 value ++ rest) (offset + 4) = workerLoadU32 rest offset := by
  rw [workerLoadU32, loadField_append_right (by simp)]
  simp [workerLoadU32]

@[simp] theorem workerLoadU64_add_four (value : UInt32) (rest : List UInt8) (offset : ℕ) :
    workerLoadU64 (workerStoreU32 value ++ rest) (offset + 4) = workerLoadU64 rest offset := by
  rw [workerLoadU64, loadField_append_right (by simp)]
  simp [workerLoadU64]

/-- A field behind a 64-bit field. -/
@[simp] theorem workerLoadU32_add_eight (value : UInt64) (rest : List UInt8) (offset : ℕ) :
    workerLoadU32 (workerStoreU64 value ++ rest) (offset + 8) = workerLoadU32 rest offset := by
  rw [workerLoadU32, loadField_append_right (by simp)]
  simp [workerLoadU32]

@[simp] theorem workerLoadU64_add_eight (value : UInt64) (rest : List UInt8) (offset : ℕ) :
    workerLoadU64 (workerStoreU64 value ++ rest) (offset + 8) = workerLoadU64 rest offset := by
  rw [workerLoadU64, loadField_append_right (by simp)]
  simp [workerLoadU64]

@[simp] theorem drop_add_four (value : UInt32) (rest : List UInt8) (n : ℕ) :
    (workerStoreU32 value ++ rest).drop (n + 4) = rest.drop n := by
  rw [Nat.add_comm, ← List.drop_drop, List.drop_left' (length_workerStoreU32 value)]

@[simp] theorem drop_add_eight (value : UInt64) (rest : List UInt8) (n : ℕ) :
    (workerStoreU64 value ++ rest).drop (n + 8) = rest.drop n := by
  rw [Nat.add_comm, ← List.drop_drop, List.drop_left' (length_workerStoreU64 value)]

/-- The bytes of a field are the bytes it was read from. -/
theorem workerStoreU32_load {data : List UInt8} {offset : ℕ} (h : offset + 4 ≤ data.length) :
    workerStoreU32 (workerLoadU32 data offset) = (data.drop offset).take 4 := by
  have hlt := loadField_lt data offset 4
  rw [workerStoreU32, workerLoadU32, UInt32.toNat_ofNat_of_lt' hlt, fieldBytes_loadField h]

theorem workerStoreU64_load {data : List UInt8} {offset : ℕ} (h : offset + 8 ≤ data.length) :
    workerStoreU64 (workerLoadU64 data offset) = (data.drop offset).take 8 := by
  have hlt := loadField_lt data offset 8
  rw [workerStoreU64, workerLoadU64, UInt64.toNat_ofNat_of_lt' hlt, fieldBytes_loadField h]

/-- A message from a 32-bit field on. -/
theorem drop_eq_workerStoreU32 {data : List UInt8} {offset : ℕ} (h : offset + 4 ≤ data.length) :
    data.drop offset = workerStoreU32 (workerLoadU32 data offset) ++ data.drop (offset + 4) := by
  rw [workerStoreU32_load h, ← List.drop_drop, List.take_append_drop]

theorem workerLoadU32_take {data : List UInt8} {offset size : ℕ} (h : offset + 4 ≤ size) :
    workerLoadU32 (data.take size) offset = workerLoadU32 data offset := by
  rw [workerLoadU32, workerLoadU32, loadField_take h]

theorem workerLoadU64_take {data : List UInt8} {offset size : ℕ} (h : offset + 8 ≤ size) :
    workerLoadU64 (data.take size) offset = workerLoadU64 data offset := by
  rw [workerLoadU64, workerLoadU64, loadField_take h]

/-- A size is stored in full. -/
theorem toNat_ofNat_size {size : ℕ} (h : size ≤ sizeMax) : (UInt64.ofNat size).toNat = size :=
  UInt64.toNat_ofNat_of_lt' (by unfold sizeMax at h; norm_num [UInt64.size]; omega)

/-- A size that fits in 32 bits is stored in full. -/
theorem toNat_ofNat_size32 {size : ℕ} (h : size ≤ uint32Max) : (UInt32.ofNat size).toNat = size :=
  UInt32.toNat_ofNat_of_lt' (by unfold uint32Max at h; norm_num [UInt32.size]; omega)

/-! ## The input pipe -/

/-- `npunlock_worker_read_all`. A read is the bytes that `ReadFile` delivered, `none` if
it failed; a broken pipe ends the list and a read of no bytes ends the loop. -/
def workerReadAll (maximum : ℕ) : List (Option (List UInt8)) → List UInt8 → Option (List UInt8)
  | [], data => some data
  | none :: _, _ => none
  | some [] :: _, data => some data
  | some (byte :: chunk) :: reads, data =>
    if maximum < data.length + (byte :: chunk).length then none
    else workerReadAll maximum reads (data ++ byte :: chunk)

theorem length_le_of_workerReadAll {maximum : ℕ} :
    ∀ {reads : List (Option (List UInt8))} {data result : List UInt8},
      workerReadAll maximum reads data = some result → data.length ≤ maximum →
        result.length ≤ maximum
  | [], data, result, h, hdata => by
    obtain rfl : data = result := by simpa [workerReadAll] using h
    exact hdata
  | none :: _, _, _, h, _ => by simp [workerReadAll] at h
  | some [] :: _, data, result, h, hdata => by
    obtain rfl : data = result := by simpa [workerReadAll] using h
    exact hdata
  | some (byte :: chunk) :: reads, data, result, h, hdata => by
    rw [workerReadAll, Option.ite_none_left_eq_some] at h
    exact length_le_of_workerReadAll h.2 (by rw [List.length_append]; omega)

/-- Every way to deliver a message in pieces that do not exceed the limit. -/
theorem workerReadAll_chunks {maximum : ℕ} :
    ∀ (chunks : List (List UInt8)) (data : List UInt8), (∀ chunk ∈ chunks, chunk ≠ []) →
      data.length + chunks.flatten.length ≤ maximum →
        workerReadAll maximum (chunks.map some) data = some (data ++ chunks.flatten)
  | [], data, _, _ => by simp [workerReadAll]
  | [] :: _, _, h, _ => absurd rfl (h [] (by simp))
  | (byte :: chunk) :: chunks, data, h, hle => by
    rw [List.flatten_cons, List.length_append] at hle
    rw [List.map_cons, workerReadAll, if_neg (by omega),
      workerReadAll_chunks chunks _ (fun c hc => h c (by simp [hc]))
        (by rw [List.length_append]; omega)]
    simp

/-! ## Statuses -/

/-- The statuses of `npunlock_status` that the parent of a worker returns. -/
inductive NpunlockStatus
  | ok
  | invalidArgument
  | outOfMemory
  | overflow
  | notFound
  | unsupported
  | driverFailed
  | toolFailed
  deriving DecidableEq

/-- The bytes of a C string, those before the first zero. -/
def cString (bytes : List UInt8) : List UInt8 :=
  bytes.takeWhile (· ≠ 0)

/-- The bytes of a string literal. -/
def literal (text : String) : List UInt8 :=
  text.toUTF8.data.toList

theorem zero_notMem_cString (bytes : List UInt8) : 0 ∉ cString bytes := fun h => by
  simpa using List.mem_takeWhile_imp h

end Npunlock
