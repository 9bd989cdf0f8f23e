import Npunlock.PatchReport
import Npunlock.Postcondition

/-!
# What a patch report holds

`build_report` never runs out of the buffer it allocates : the longest record of a target
fits the 2048 bytes that are reserved for it, and the rest of the report fits the others
(`buildReport_eq`). Its text is a JSON document, from which the details of the targets are
read back (`patch_report_suffices`). Of a patch that succeeded it gives the targets in their
order, and what the output holds at the offsets that it names (`patch_reported`).
-/

namespace Npunlock

open Json (quoted joined integerText)

/-! ## Appends that fit -/

/-- The writer with more text. -/
def ReportWriter.appended (writer : ReportWriter) (text : List Char) : ReportWriter :=
  { writer with data := writer.data ++ text }

/-- A byte is left behind the text. -/
def ReportWriter.Fits (writer : ReportWriter) (text : List Char) : Prop :=
  writer.data.length + text.length < writer.capacity

theorem appended_appended (writer : ReportWriter) (text text' : List Char) :
    (writer.appended text).appended text' = writer.appended (text ++ text') := by
  simp [ReportWriter.appended]

theorem fits_append_iff {writer : ReportWriter} {text text' : List Char} :
    writer.Fits (text ++ text') ↔ (writer.appended text).Fits text' := by
  simp [ReportWriter.Fits, ReportWriter.appended, Nat.add_assoc]

theorem ReportWriter.Fits.left {writer : ReportWriter} {text text' : List Char}
    (h : writer.Fits (text ++ text')) : writer.Fits text := by
  simp only [ReportWriter.Fits, List.length_append] at h ⊢
  omega

theorem appendReport_eq {writer : ReportWriter} {text : List Char} (h : writer.Fits text) :
    appendReport writer text = .ok (writer.appended text) := by
  unfold ReportWriter.Fits at h
  unfold appendReport reportAppend
  rw [if_neg (by omega), if_neg (by omega)]
  rfl

/-- A loop whose rounds append texts appends them all, if they fit. -/
theorem foldlM_appends {α : Type} {step : ReportWriter → α → Result ReportWriter}
    {text : α → List Char} (hstep : ∀ writer a, writer.Fits (text a) →
      step writer a = .ok (writer.appended (text a))) :
    ∀ (l : List α) (writer : ReportWriter), writer.Fits (l.flatMap text) →
      l.foldlM step writer = .ok (writer.appended (l.flatMap text))
  | [], writer, _ => by
    rw [List.flatMap_nil, ReportWriter.appended, List.append_nil]
    rfl
  | a :: l, writer, h => by
    rw [List.flatMap_cons] at h ⊢
    rw [List.foldlM_cons, hstep writer a h.left, ok_bind,
      foldlM_appends hstep l _ (fits_append_iff.1 h), appended_appended]

/-- Texts behind separators are joined. -/
theorem flatMap_separator {α : Type} (text : α → List Char) (l : List α) :
    (l.zipIdx.flatMap fun entry => separator entry.2 ++ text entry.1) = joined (l.map text) := by
  have hlater : ∀ (l : List α) (index : ℕ), 0 < index →
      ((l.zipIdx index).flatMap fun entry => separator entry.2 ++ text entry.1) =
        (l.map text).flatMap (',' :: ·) := by
    intro l
    induction l with
    | nil => exact fun _ _ => rfl
    | cons a l ih =>
      intro index hindex
      rw [List.zipIdx_cons, List.flatMap_cons, ih (index + 1) (by omega), List.map_cons,
        List.flatMap_cons, separator, if_neg (by omega)]
      rfl
  cases l with
  | nil => rfl
  | cons a l =>
    rw [List.zipIdx_cons, List.flatMap_cons, hlater l (0 + 1) (by omega), List.map_cons,
      Json.joined_cons]
    rfl

/-! ## The texts of the loops -/

/-- A version 2 record. -/
def targetTextV2 (detail : PatchDetail) : List Char :=
  targetHeadV2 detail ++ joined (detail.tensorsV2.map tensorText) ++ [']', '\x7d']

/-- The record of a target. -/
def detailText (detail : PatchDetail) : List Char :=
  if detail.tensorsV2.length ≠ 0 then targetTextV2 detail else targetText detail

theorem appendDetail_eq (writer : ReportWriter) (entry : PatchDetail × ℕ)
    (h : writer.Fits (separator entry.2 ++ detailText entry.1)) :
    appendDetail writer entry =
      .ok (writer.appended (separator entry.2 ++ detailText entry.1)) := by
  obtain ⟨detail, index⟩ := entry
  unfold appendDetail
  unfold detailText at h ⊢
  dsimp only at h ⊢
  split_ifs at h ⊢ with hversion
  · rw [targetTextV2, ← flatMap_separator, ← List.append_assoc, ← List.append_assoc] at h ⊢
    have hstep (writer : ReportWriter) (entry : TensorContractV2 × ℕ)
        (hentry : writer.Fits (separator entry.2 ++ tensorText entry.1)) :
        appendTensor writer entry =
          .ok (writer.appended (separator entry.2 ++ tensorText entry.1)) :=
      appendReport_eq hentry
    rw [appendReport_eq h.left.left, ok_bind,
      foldlM_appends hstep _ _ (fits_append_iff.1 h.left), ok_bind,
      appended_appended, appendReport_eq (fits_append_iff.1 h), appended_appended]
  · exact appendReport_eq h

/-! ## Lengths -/

theorem length_decimal_le {n k : ℕ} (hk : 0 < k) (h : n < 10 ^ k) : (decimal n).length ≤ k :=
  (Nat.length_toDigits_le_iff (by decide) hk).2 h

theorem length_integerText_le {n : ℤ} (h : -2 ^ 63 ≤ n ∧ n < 2 ^ 63) :
    (integerText n).length ≤ 20 := by
  cases n with
  | ofNat n =>
    exact length_decimal_le (by decide) (by simp only [Int.ofNat_eq_natCast] at h; omega)
  | negSucc n =>
    have hdigits : (decimal (n + 1)).length ≤ 19 := length_decimal_le (by decide) (by omega)
    exact Nat.succ_le_succ hdigits

@[simp] theorem length_quoted (s : String) : (quoted s).length = s.toList.length + 2 := by
  simp [quoted]

@[simp] theorem length_fieldText (name : String) (value : List Char) :
    (fieldText name value).length = name.toList.length + 3 + value.length := by
  simp [fieldText]
  omega

@[simp] theorem length_objectText (fields : List (List Char)) :
    (objectText fields).length = (joined fields).length + 2 := by
  simp [objectText]

/-- The values of a tensor fit the fields of the record. -/
@[mk_iff]
structure TensorContractV2.Fits (tensor : TensorContractV2) : Prop where
  tensorIndex : tensor.tensorIndex < 2 ^ 32
  elementCount : tensor.elementCount < 2 ^ 64
  spanBytes : tensor.spanBytes < 2 ^ 64
  observedFlags : tensor.observedFlags < 2 ^ 32

instance (tensor : TensorContractV2) : Decidable tensor.Fits :=
  decidable_of_iff' _ (TensorContractV2.fits_iff tensor)

theorem length_tensorPrecisionNameV2_le (precision : ℕ) :
    (tensorPrecisionNameV2 precision).toList.length ≤ 7 := by
  unfold tensorPrecisionNameV2
  split_ifs <;> decide

theorem length_tensorRoleNameV2_le (role : ℕ) : (tensorRoleNameV2 role).toList.length ≤ 6 := by
  unfold tensorRoleNameV2
  split_ifs <;> decide

theorem length_tensorText_le {tensor : TensorContractV2} (h : tensor.Fits) :
    (tensorText tensor).length ≤ 164 := by
  have hrole := length_tensorRoleNameV2_le tensor.role
  have hindex : (decimal tensor.tensorIndex).length ≤ 10 :=
    length_decimal_le (by decide) (h.tensorIndex.trans (by decide))
  have hprecision := length_tensorPrecisionNameV2_le tensor.precision
  have helements : (decimal tensor.elementCount).length ≤ 20 :=
    length_decimal_le (by decide) (h.elementCount.trans (by decide))
  have hspan : (decimal tensor.spanBytes).length ≤ 20 :=
    length_decimal_le (by decide) (h.spanBytes.trans (by decide))
  have hflags : (decimal tensor.observedFlags).length ≤ 10 :=
    length_decimal_le (by decide) (h.observedFlags.trans (by decide))
  simp [tensorText, joined]
  omega

/-- The values of a detail have their types in the source. -/
@[mk_iff]
structure PatchDetail.Fits (detail : PatchDetail) : Prop where
  invocationIndex : detail.invocationIndex < 2 ^ 32
  rangeIndex : detail.rangeIndex < 2 ^ 32
  inputCount : detail.inputCount < 2 ^ 32
  parameterBase : detail.parameterBase < 2 ^ 64
  elementCount : detail.elementCount < 2 ^ 64
  spanBytes : detail.spanBytes < 2 ^ 64
  contractFlags : detail.contractFlags < 2 ^ 32
  targetFlagsV2 : detail.targetFlagsV2 < 2 ^ 32
  tensorCount : detail.tensorsV2.length ≤ patchblobTargetV2MaxTensors
  tensors : ∀ tensor ∈ detail.tensorsV2, tensor.Fits
  extentFileOffset : detail.extentFileOffset < 2 ^ 64
  addendFileOffset : detail.addendFileOffset < 2 ^ 64
  oldExtent : detail.oldExtent < 2 ^ 32
  newExtent : detail.newExtent < 2 ^ 32
  oldAddend : -2 ^ 63 ≤ detail.oldAddend ∧ detail.oldAddend < 2 ^ 63
  newAddend : -2 ^ 63 ≤ detail.newAddend ∧ detail.newAddend < 2 ^ 63

instance (detail : PatchDetail) : Decidable detail.Fits :=
  decidable_of_iff' _ (PatchDetail.fits_iff detail)

theorem length_decimal_u32 {n : ℕ} (h : n < 2 ^ 32) : (decimal n).length ≤ 10 :=
  length_decimal_le (by decide) (h.trans (by decide))

theorem length_decimal_u64 {n : ℕ} (h : n < 2 ^ 64) : (decimal n).length ≤ 20 :=
  length_decimal_le (by decide) (h.trans (by decide))

theorem length_joined_le {k : ℕ} : ∀ {texts : List (List Char)},
    (∀ text ∈ texts, text.length ≤ k) → (joined texts).length ≤ texts.length * (k + 1)
  | [], _ => Nat.zero_le _
  | [text], h => by
    have := h text List.mem_cons_self
    simp [joined]
    omega
  | text :: next :: texts, h => by
    have := h text List.mem_cons_self
    have := length_joined_le fun other hother => h other (List.mem_cons_of_mem text hother)
    simp only [joined, List.length_append, List.length_cons] at this ⊢
    rw [Nat.add_mul]
    omega

section Detail

variable {detail : PatchDetail} (h : detail.Fits)

include h

theorem length_extentText_le : (extentText detail).length ≤ 80 := by
  have hoffset := length_decimal_u64 h.extentFileOffset
  have hold := length_decimal_u32 h.oldExtent
  have hnew := length_decimal_u32 h.newExtent
  simp [extentText, joined]
  omega

theorem length_addendText_le : (addendText detail).length ≤ 116 := by
  have hoffset := length_decimal_u64 h.addendFileOffset
  have hold := length_integerText_le h.oldAddend
  have hnew := length_integerText_le h.newAddend
  simp [addendText, joined]
  omega

theorem length_targetHeadV2_le : (targetHeadV2 detail).length ≤ 400 := by
  have hinvocation := length_decimal_u32 h.invocationIndex
  have hrange := length_decimal_u32 h.rangeIndex
  have hinputs := length_decimal_u32 h.inputCount
  have hbase := length_decimal_u64 h.parameterBase
  have hversion : (decimal 2).length = 1 := rfl
  have hflags := length_decimal_u32 h.targetFlagsV2
  have hextent := length_extentText_le h
  have haddend := length_addendText_le h
  simp [targetHeadV2, openText, joined]
  omega

theorem length_targetText_le : (targetText detail).length ≤ 600 := by
  have hinvocation := length_decimal_u32 h.invocationIndex
  have hrange := length_decimal_u32 h.rangeIndex
  have hinputs := length_decimal_u32 h.inputCount
  have hbase := length_decimal_u64 h.parameterBase
  have helements := length_decimal_u64 h.elementCount
  have hspan := length_decimal_u64 h.spanBytes
  have hflags := length_decimal_u32 h.contractFlags
  have hextent := length_extentText_le h
  have haddend := length_addendText_le h
  unfold targetText
  split_ifs <;> simp [joined] <;> omega

/-- A record fits the bytes that are allocated for its target, with its separator. -/
theorem length_detailText_lt : (detailText detail).length < 2048 := by
  unfold detailText
  split_ifs
  · have hhead := length_targetHeadV2_le h
    have hcount := h.tensorCount
    have htensors := @length_joined_le 164 (detail.tensorsV2.map tensorText)
      (List.forall_mem_map.2 fun tensor htensor => length_tensorText_le (h.tensors tensor htensor))
    unfold patchblobTargetV2MaxTensors at hcount
    simp only [targetTextV2, List.length_append, List.length_map, List.length_cons,
      List.length_nil] at htensors ⊢
    omega
  · have := length_targetText_le h
    omega

end Detail

/-- The values of a summary have their types in the source. -/
@[mk_iff]
structure PatchSummary.Fits (summary : PatchSummary) : Prop where
  insertionFileOffset : summary.insertionFileOffset < 2 ^ 64
  insertedSize : summary.insertedSize < 2 ^ 64
  imageBase : summary.imageBase < 2 ^ 64
  imageSize : summary.imageSize < 2 ^ 64
  oldSectionTableOffset : summary.oldSectionTableOffset < 2 ^ 64
  newSectionTableOffset : summary.newSectionTableOffset < 2 ^ 64
  tileCount : summary.tileCount < 2 ^ 32
  details : ∀ detail ∈ summary.details, detail.Fits

instance (summary : PatchSummary) : Decidable summary.Fits :=
  decidable_of_iff' _ (PatchSummary.fits_iff summary)

theorem length_schema (summary : PatchSummary) : summary.schema.toList.length = 21 := by
  unfold PatchSummary.schema
  split
  · decide
  · split_ifs <;> decide

/-- `digest_hex` of a SHA-256. -/
theorem length_digestHex (data : List UInt8) : (digestHex (sha256 data)).toList.length = 64 :=
  (isSha256_hexdigest data).1

theorem length_reportHead_lt {summary : PatchSummary} (h : summary.Fits)
    {graphHash elfHash outputHash : String} (hgraph : graphHash.toList.length = 64)
    (helf : elfHash.toList.length = 64) (houtput : outputHash.toList.length = 64) :
    (reportHead graphHash elfHash outputHash summary).length < 1024 := by
  have hschema := length_schema summary
  have htiles := length_decimal_u32 h.tileCount
  have hoffset := length_decimal_u64 h.insertionFileOffset
  have hinserted := length_decimal_u64 h.insertedSize
  have hbase := length_decimal_u64 h.imageBase
  have hsize := length_decimal_u64 h.imageSize
  have hold := length_decimal_u64 h.oldSectionTableOffset
  have hnew := length_decimal_u64 h.newSectionTableOffset
  simp [reportHead, openText, joined]
  omega

/-! ## The whole text -/

/-- The text of a report. -/
def reportText (graphBlob shaveElf outputBlob : View) (summary : PatchSummary) : List Char :=
  reportHead (viewHash graphBlob) (viewHash shaveElf) (viewHash outputBlob) summary ++
    joined (summary.details.map detailText) ++ [']', '\x7d', '\n']

section Report

variable {graphBlob shaveElf outputBlob : View} {summary : PatchSummary} (h : summary.Fits)

include h

/-- The text fits the buffer, with its last byte. -/
theorem length_reportText_lt : (reportText graphBlob shaveElf outputBlob summary).length <
    2048 + summary.details.length * 2048 := by
  have hhead := length_reportHead_lt h (length_digestHex (slice graphBlob.data 0 graphBlob.size))
    (length_digestHex (slice shaveElf.data 0 shaveElf.size))
    (length_digestHex (slice outputBlob.data 0 outputBlob.size))
  have hdetails := @length_joined_le 2047 (summary.details.map detailText)
    (List.forall_mem_map.2 fun detail hdetail =>
      Nat.le_of_lt_succ (length_detailText_lt (h.details detail hdetail)))
  rw [List.length_map] at hdetails
  simp only [reportText, viewHash, List.length_append, List.length_cons, List.length_nil]
  omega

/-- The buffer is never too small. -/
theorem buildReport_eq : buildReport graphBlob shaveElf outputBlob summary =
    if 2048 + summary.details.length * 2048 ≤ sizeMax
    then .ok (reportText graphBlob shaveElf outputBlob summary) else .error reportOverflows := by
  have hlength := @length_reportText_lt graphBlob shaveElf outputBlob summary h
  unfold buildReport reportCapacity
  by_cases hsize : 2048 + summary.details.length * 2048 ≤ sizeMax
  · have hmul : checkedMulSize summary.details.length 2048 =
        some (summary.details.length * 2048) :=
      checkedMulSize_eq_some_iff.2 ⟨(Nat.le_add_left _ _).trans hsize, rfl⟩
    have hadd := checkedAddSize_eq_some_iff.2 ⟨hsize, rfl⟩
    rw [if_pos hsize, hmul, Option.bind_eq_bind, Option.bind_some, hadd]
    dsimp only
    have hfits : ReportWriter.Fits ⟨[], 2048 + summary.details.length * 2048⟩
        (reportText graphBlob shaveElf outputBlob summary) := by
      simpa [ReportWriter.Fits] using hlength
    rw [reportText, ← flatMap_separator] at hfits ⊢
    rw [appendReport_eq hfits.left.left, ok_bind,
      foldlM_appends appendDetail_eq _ _ (fits_append_iff.1 hfits.left), ok_bind,
      appended_appended, appendReport_eq (fits_append_iff.1 hfits), ok_bind, appended_appended]
    rfl
  · rw [if_neg hsize]
    cases hmul : checkedMulSize summary.details.length 2048 with
    | none => rfl
    | some space =>
      obtain ⟨_, rfl⟩ := checkedMulSize_eq_some_iff.1 hmul
      have hadd : checkedAddSize 2048 (summary.details.length * 2048) = none := if_pos (by omega)
      rw [Option.bind_eq_bind, Option.bind_some, hadd]

end Report

/-! ## The document -/

open Json (Derives DerivesField derives_fields derives_items IsPlainText)

theorem derivesField {name : String} {value : Json} {text : List Char}
    (hname : IsPlainText name) (hvalue : Derives (.value value) text) :
    DerivesField (name, value) (fieldText name text) :=
  ⟨hname, text, hvalue, rfl⟩

theorem derives_text {text : String} (h : IsPlainText text) :
    Derives (.value (.string text)) (quoted text) :=
  .string h

theorem derives_decimal (n : ℕ) : Derives (.value (.number n)) (decimal n) :=
  .number n

/-- More text behind the last of some texts. -/
theorem joined_append (last more : List Char) : ∀ texts : List (List Char),
    joined (texts ++ [last]) ++ more = joined (texts ++ [last ++ more])
  | [] => rfl
  | [text] => by simp [joined]
  | text :: next :: texts => by
    have h := joined_append last more (next :: texts)
    simp only [List.cons_append, joined, List.append_assoc] at h ⊢
    rw [h]

/-- An object that is written up to the items of its last field, the items, and its end. -/
theorem openText_close (fields : List (List Char)) (name : String) (items : List Char) :
    openText fields name ++ items ++ [']', '\x7d'] =
      objectText (fields ++ [fieldText name ('[' :: items ++ [']'])]) := by
  have hlast : fieldText name ('[' :: items ++ [']']) =
      fieldText name ['['] ++ (items ++ [']']) := by
    simp only [fieldText, List.append_assoc, List.cons_append, List.nil_append]
  rw [hlast, objectText, ← joined_append, openText]
  simp only [List.append_assoc, List.cons_append, List.nil_append]

/-- The value of a tensor record. -/
def tensorJson (tensor : TensorContractV2) : Json :=
  .object [("role", .string (tensorRoleNameV2 tensor.role)),
    ("tensor_index", .number tensor.tensorIndex),
    ("precision", .string (tensorPrecisionNameV2 tensor.precision)),
    ("element_count", .number tensor.elementCount),
    ("span_bytes", .number tensor.spanBytes),
    ("observed_flags", .number tensor.observedFlags)]

theorem derives_tensorText (tensor : TensorContractV2) :
    Derives (.value (tensorJson tensor)) (tensorText tensor) := by
  have hrole : IsPlainText (tensorRoleNameV2 tensor.role) := by
    unfold tensorRoleNameV2
    split_ifs <;> decide
  have hprecision : IsPlainText (tensorPrecisionNameV2 tensor.precision) := by
    unfold tensorPrecisionNameV2
    split_ifs <;> decide
  exact .object (derives_fields
    (.cons (derivesField (by decide) (.string hrole))
    (.cons (derivesField (by decide) (derives_decimal _))
    (.cons (derivesField (by decide) (.string hprecision))
    (.cons (derivesField (by decide) (derives_decimal _))
    (.cons (derivesField (by decide) (derives_decimal _))
    (.cons (derivesField (by decide) (derives_decimal _)) .nil)))))))

/-- The value of the field for the extent. -/
def extentJson (detail : PatchDetail) : Json :=
  .object [("file_offset", .number detail.extentFileOffset), ("old", .number detail.oldExtent),
    ("new", .number detail.newExtent)]

theorem derivesField_extentText (detail : PatchDetail) :
    DerivesField ("extent", extentJson detail) (extentText detail) :=
  derivesField (by decide) (.object (derives_fields
    (.cons (derivesField (by decide) (derives_decimal _))
    (.cons (derivesField (by decide) (derives_decimal _))
    (.cons (derivesField (by decide) (derives_decimal _)) .nil)))))

/-- The value of the field for the code pointer. -/
def addendJson (detail : PatchDetail) : Json :=
  .object [("file_offset", .number detail.addendFileOffset), ("old", .number detail.oldAddend),
    ("new", .number detail.newAddend)]

theorem derivesField_addendText (detail : PatchDetail) :
    DerivesField ("code_relocation_addend", addendJson detail) (addendText detail) :=
  derivesField (by decide) (.object (derives_fields
    (.cons (derivesField (by decide) (derives_decimal _))
    (.cons (derivesField (by decide) (.number _))
    (.cons (derivesField (by decide) (.number _)) .nil)))))

/-- The value of a version 2 record. -/
def targetJsonV2 (detail : PatchDetail) : Json :=
  .object [("invocation_index", .number detail.invocationIndex),
    ("range_index", .number detail.rangeIndex),
    ("input_count", .number detail.inputCount),
    ("parameter_base", .number detail.parameterBase),
    ("contract_version", .number 2),
    ("target_flags", .number detail.targetFlagsV2),
    ("extent", extentJson detail),
    ("code_relocation_addend", addendJson detail),
    ("tensors", .array (detail.tensorsV2.map tensorJson))]

theorem derives_targetTextV2 (detail : PatchDetail) :
    Derives (.value (targetJsonV2 detail)) (targetTextV2 detail) := by
  have htensors : Derives (.value (.array (detail.tensorsV2.map tensorJson)))
      ('[' :: joined (detail.tensorsV2.map tensorText) ++ [']']) :=
    .array (derives_items (List.forall₂_map_left_iff.2 (List.forall₂_map_right_iff.2
      (List.forall₂_same.2 fun tensor _ => derives_tensorText tensor))))
  have htext : targetTextV2 detail = _ := openText_close _ _ _
  rw [htext]
  exact .object (derives_fields
    (.cons (derivesField (by decide) (derives_decimal _))
    (.cons (derivesField (by decide) (derives_decimal _))
    (.cons (derivesField (by decide) (derives_decimal _))
    (.cons (derivesField (by decide) (derives_decimal _))
    (.cons (derivesField (by decide) (derives_decimal _))
    (.cons (derivesField (by decide) (derives_decimal _))
    (.cons (derivesField_extentText detail)
    (.cons (derivesField_addendText detail)
    (.cons (derivesField (by decide) htensors) .nil))))))))))

/-- The names of the contract in a version 1 record. -/
def contractNames (detail : PatchDetail) : List String :=
  ["static", "dense",
    if detail.contractFlags &&& patchblobContractFp16 ≠ 0 then "fp16" else "fp32",
    "cmx", "disjoint_output"] ++
    if detail.contractFlags &&& patchblobContractInput1Scalar ≠ 0 then ["input_1_scalar"] else []

/-- The value of a version 1 record. -/
def targetJson (detail : PatchDetail) : Json :=
  .object [("invocation_index", .number detail.invocationIndex),
    ("range_index", .number detail.rangeIndex),
    ("input_count", .number detail.inputCount),
    ("parameter_base", .number detail.parameterBase),
    ("element_count", .number detail.elementCount),
    ("span_bytes", .number detail.spanBytes),
    ("extent", extentJson detail),
    ("code_relocation_addend", addendJson detail),
    ("contract_flags", .number detail.contractFlags),
    ("contract", .array ((contractNames detail).map .string))]

theorem derives_contractText (detail : PatchDetail) :
    Derives (.value (.array ((contractNames detail).map .string)))
      ('[' :: joined ((contractNames detail).map quoted) ++ [']']) := by
  have hplain : ∀ name ∈ contractNames detail, IsPlainText name := by
    unfold contractNames
    split_ifs <;> simp <;> decide
  exact .array (derives_items (List.forall₂_map_left_iff.2 (List.forall₂_map_right_iff.2
    (List.forall₂_same.2 fun name hname => .string (hplain name hname)))))

theorem derives_targetText (detail : PatchDetail) :
    Derives (.value (targetJson detail)) (targetText detail) := by
  have hcontract : fieldText "contract" ('[' :: joined ((contractNames detail).map quoted) ++
      [']']) = fieldText "contract" ('[' :: joined [quoted "static", quoted "dense",
        quoted (if detail.contractFlags &&& patchblobContractFp16 ≠ 0 then "fp16" else "fp32"),
        quoted "cmx", quoted "disjoint_output"] ++
        (if detail.contractFlags &&& patchblobContractInput1Scalar ≠ 0
          then ',' :: quoted "input_1_scalar" else []) ++ [']']) := by
    unfold contractNames
    congr 1
    split_ifs <;> simp only [joined, List.map_cons, List.map_nil, List.cons_append,
      List.nil_append, List.append_assoc, List.append_nil]
  unfold targetText
  dsimp only
  rw [← hcontract]
  exact .object (derives_fields
    (.cons (derivesField (by decide) (derives_decimal _))
    (.cons (derivesField (by decide) (derives_decimal _))
    (.cons (derivesField (by decide) (derives_decimal _))
    (.cons (derivesField (by decide) (derives_decimal _))
    (.cons (derivesField (by decide) (derives_decimal _))
    (.cons (derivesField (by decide) (derives_decimal _))
    (.cons (derivesField_extentText detail)
    (.cons (derivesField_addendText detail)
    (.cons (derivesField (by decide) (derives_decimal _))
    (.cons (derivesField (by decide) (derives_contractText detail)) .nil)))))))))))

/-- The value of a record. -/
def detailJson (detail : PatchDetail) : Json :=
  if detail.tensorsV2.length ≠ 0 then targetJsonV2 detail else targetJson detail

theorem derives_detailText (detail : PatchDetail) :
    Derives (.value (detailJson detail)) (detailText detail) := by
  unfold detailJson detailText
  split_ifs
  · exact derives_targetTextV2 detail
  · exact derives_targetText detail

/-- The value of a report. -/
def reportJson (graphHash elfHash outputHash : String) (summary : PatchSummary) : Json :=
  .object [("schema", .string summary.schema),
    ("input_graph_sha256", .string graphHash),
    ("shave_elf_sha256", .string elfHash),
    ("output_graph_sha256", .string outputHash),
    ("graph_contract", .object [("compiler", .string "8.3"), ("npu", .string "3720"),
      ("tiles", .number summary.tileCount), ("loader_elf", .string "1.2.0"),
      ("mapped_inference", .string "7.0.4")]),
    ("append", .object [("file_offset", .number summary.insertionFileOffset),
      ("inserted_size", .number summary.insertedSize), ("image_base", .number summary.imageBase),
      ("image_size", .number summary.imageSize)]),
    ("section_table", .object [("old_offset", .number summary.oldSectionTableOffset),
      ("new_offset", .number summary.newSectionTableOffset)]),
    ("validation", .object [("section_contents_preserved", .boolean true),
      ("mutation_set_preserved", .boolean true)]),
    ("targets", .array (summary.details.map detailJson))]

theorem isPlainText_of_isSha256 {text : String} (h : IsSha256 text) : IsPlainText text := by
  have hdigits : IsPlainText "0123456789abcdef" := by decide
  exact fun c hc => hdigits c (h.2 c hc)

theorem isDocument_reportText (graphBlob shaveElf outputBlob : View) (summary : PatchSummary) :
    Json.IsDocument
      (reportJson (viewHash graphBlob) (viewHash shaveElf) (viewHash outputBlob) summary)
      (reportText graphBlob shaveElf outputBlob summary) := by
  have hhash (view : View) : IsPlainText (viewHash view) :=
    isPlainText_of_isSha256 (isSha256_hexdigest (slice view.data 0 view.size))
  have hschema : IsPlainText summary.schema := by
    unfold PatchSummary.schema
    split
    · decide
    · split_ifs <;> decide
  have htargets : Derives (.value (.array (summary.details.map detailJson)))
      ('[' :: joined (summary.details.map detailText) ++ [']']) :=
    .array (derives_items (List.forall₂_map_left_iff.2 (List.forall₂_map_right_iff.2
      (List.forall₂_same.2 fun detail _ => derives_detailText detail))))
  have hspace : ∀ c ∈ ['\n'], Json.isSpace c = true := fun c hc => List.mem_singleton.1 hc ▸ rfl
  refine ⟨_, ['\n'], ?_, hspace, .object (derives_fields
    (.cons (derivesField (by decide) (.string hschema))
    (.cons (derivesField (by decide) (.string (hhash graphBlob)))
    (.cons (derivesField (by decide) (.string (hhash shaveElf)))
    (.cons (derivesField (by decide) (.string (hhash outputBlob)))
    (.cons (derivesField (by decide) (.object (derives_fields
      (.cons (derivesField (by decide) (derives_text (by decide)))
      (.cons (derivesField (by decide) (derives_text (by decide)))
      (.cons (derivesField (by decide) (derives_decimal _))
      (.cons (derivesField (by decide) (derives_text (by decide)))
      (.cons (derivesField (by decide) (derives_text (by decide))) .nil))))))))
    (.cons (derivesField (by decide) (.object (derives_fields
      (.cons (derivesField (by decide) (derives_decimal _))
      (.cons (derivesField (by decide) (derives_decimal _))
      (.cons (derivesField (by decide) (derives_decimal _))
      (.cons (derivesField (by decide) (derives_decimal _)) .nil)))))))
    (.cons (derivesField (by decide) (.object (derives_fields
      (.cons (derivesField (by decide) (derives_decimal _))
      (.cons (derivesField (by decide) (derives_decimal _)) .nil)))))
    (.cons (derivesField (by decide) (.object (derives_fields
      (.cons (derivesField (by decide) .true)
      (.cons (derivesField (by decide) .true) .nil)))))
    (.cons (derivesField (by decide) htargets) .nil))))))))))⟩
  have hend : reportText graphBlob shaveElf outputBlob summary =
      reportHead (viewHash graphBlob) (viewHash shaveElf) (viewHash outputBlob) summary ++
        joined (summary.details.map detailText) ++ [']', '\x7d'] ++ ['\n'] := by
    rw [reportText, List.append_assoc _ [']', '\x7d']]
    rfl
  rw [hend]
  exact congrArg (· ++ ['\n']) (openText_close _ _ _)

/-! ## Reading the details back -/

namespace PatchReport

/-- A field with an integer. -/
def integerAt (json : Json) (key : String) : Option ℤ :=
  match json.get? key with
  | some (.number n) => some n
  | _ => none

/-- A field with an integer that is not negative. -/
def naturalAt (json : Json) (key : String) : Option ℕ :=
  (json.get? key).bind Json.natural?

/-- A field with a string. -/
def stringAt (json : Json) (key : String) : Option String :=
  (json.get? key).bind Json.string?

/-- The items of a field. -/
def itemsAt (json : Json) (key : String) : Option (List Json) :=
  (json.get? key).bind Json.array?

/-- The role with a name. -/
def roleNamed (name : String) : Option ℕ :=
  if name = "input" then some patchblobTensorRoleInputV2
  else if name = "output" then some patchblobTensorRoleOutputV2 else none

/-- The precision with a name. -/
def precisionNamed (name : String) : Option ℕ :=
  ["unknown", "fp16", "fp32", "i32", "i8", "i16", "u8", "u16", "u32"].idxOf? name

/-- The tensor of a record. -/
def readTensor (json : Json) : Option TensorContractV2 := do
  let role ← (← stringAt json "role") |> roleNamed
  let precision ← (← stringAt json "precision") |> precisionNamed
  some { structSize := tensorContractV2Size, role, precision,
         tensorIndex := ← naturalAt json "tensor_index",
         elementCount := ← naturalAt json "element_count",
         spanBytes := ← naturalAt json "span_bytes",
         observedFlags := ← naturalAt json "observed_flags" }

/-- The detail of a record. The element count and the span of a version 2 detail are those
of its last tensor, the output. -/
def readDetail (json : Json) : Option PatchDetail := do
  let invocationIndex ← naturalAt json "invocation_index"
  let rangeIndex ← naturalAt json "range_index"
  let inputCount ← naturalAt json "input_count"
  let parameterBase ← naturalAt json "parameter_base"
  let extent ← json.get? "extent"
  let extentFileOffset ← naturalAt extent "file_offset"
  let oldExtent ← naturalAt extent "old"
  let newExtent ← naturalAt extent "new"
  let addend ← json.get? "code_relocation_addend"
  let addendFileOffset ← naturalAt addend "file_offset"
  let oldAddend ← integerAt addend "old"
  let newAddend ← integerAt addend "new"
  match itemsAt json "tensors" with
  | some items => do
    let tensorsV2 ← items.mapM readTensor
    let output ← tensorsV2.getLast?
    let targetFlagsV2 ← naturalAt json "target_flags"
    some { invocationIndex, rangeIndex, inputCount, parameterBase, extentFileOffset, oldExtent,
           newExtent, addendFileOffset, oldAddend, newAddend, tensorsV2, targetFlagsV2,
           elementCount := output.elementCount, spanBytes := output.spanBytes }
  | none => do
    let elementCount ← naturalAt json "element_count"
    let spanBytes ← naturalAt json "span_bytes"
    let contractFlags ← naturalAt json "contract_flags"
    some { invocationIndex, rangeIndex, inputCount, parameterBase, extentFileOffset, oldExtent,
           newExtent, addendFileOffset, oldAddend, newAddend, elementCount, spanBytes,
           contractFlags }

/-- The details of a report. -/
def readDetails (json : Json) : Option (List PatchDetail) := do
  let items ← itemsAt json "targets"
  items.mapM readDetail

/-- A detail as its record shows it. A version 1 record does not hold the flags of version 2. A
version 2 record holds no contract flags, the element count and the span only of its tensors,
and neither the size of a tensor's structure nor values without a name. -/
def shownTensor (tensor : TensorContractV2) : TensorContractV2 :=
  { tensor with
    structSize := tensorContractV2Size
    role := if tensor.role = patchblobTensorRoleInputV2 then patchblobTensorRoleInputV2
      else patchblobTensorRoleOutputV2
    precision := if tensor.precision ≤ patchblobTensorPrecisionU32V2 then tensor.precision else 0 }

def shownDetail (detail : PatchDetail) : PatchDetail :=
  match detail.tensorsV2.getLast? with
  | none => { detail with targetFlagsV2 := 0 }
  | some output =>
    { detail with
      contractFlags := 0
      elementCount := output.elementCount
      spanBytes := output.spanBytes
      tensorsV2 := detail.tensorsV2.map shownTensor }

theorem precisionNamed_name (precision : ℕ) :
    precisionNamed (tensorPrecisionNameV2 precision) =
      some (if precision ≤ patchblobTensorPrecisionU32V2 then precision else 0) := by
  have hsmall : ∀ precision ≤ patchblobTensorPrecisionU32V2,
      precisionNamed (tensorPrecisionNameV2 precision) = some precision := by decide +kernel
  split_ifs with h
  · exact hsmall precision h
  · have hne : ∀ value ≤ patchblobTensorPrecisionU32V2, precision ≠ value :=
      fun value hvalue heq => h (heq ▸ hvalue)
    have hname : tensorPrecisionNameV2 precision = "unknown" := by
      unfold tensorPrecisionNameV2
      rw [if_neg (hne _ (by decide)), if_neg (hne _ (by decide)), if_neg (hne _ (by decide)),
        if_neg (hne _ (by decide)), if_neg (hne _ (by decide)), if_neg (hne _ (by decide)),
        if_neg (hne _ (by decide)), if_neg (hne _ (by decide))]
    rw [hname]
    rfl

theorem roleNamed_name (role : ℕ) : roleNamed (tensorRoleNameV2 role) =
    some (if role = patchblobTensorRoleInputV2 then patchblobTensorRoleInputV2
      else patchblobTensorRoleOutputV2) := by
  unfold tensorRoleNameV2
  split_ifs <;> rfl

theorem readTensor_tensorJson (tensor : TensorContractV2) :
    readTensor (tensorJson tensor) = some (shownTensor tensor) := by
  have hrole : stringAt (tensorJson tensor) "role" = some (tensorRoleNameV2 tensor.role) := rfl
  have hindex : naturalAt (tensorJson tensor) "tensor_index" = some tensor.tensorIndex := rfl
  have hprecision : stringAt (tensorJson tensor) "precision" =
      some (tensorPrecisionNameV2 tensor.precision) := rfl
  have helements : naturalAt (tensorJson tensor) "element_count" = some tensor.elementCount := rfl
  have hspan : naturalAt (tensorJson tensor) "span_bytes" = some tensor.spanBytes := rfl
  have hflags : naturalAt (tensorJson tensor) "observed_flags" = some tensor.observedFlags := rfl
  simp only [readTensor, hrole, hindex, hprecision, helements, hspan, hflags, roleNamed_name,
    precisionNamed_name, Option.bind_eq_bind, Option.bind_some, shownTensor]

/-- Records that are read back one by one. -/
theorem mapM_map_eq {α β : Type} {write : α → Json} {read : Json → Option β} {shown : α → β}
    (h : ∀ a, read (write a) = some (shown a)) :
    ∀ l : List α, (l.map write).mapM read = some (l.map shown)
  | [] => rfl
  | a :: l => by
    rw [List.map_cons, List.mapM_cons, h, mapM_map_eq h l]
    rfl

/-- The fields that both versions of a record have. -/
structure HasHead (json : Json) (detail : PatchDetail) : Prop where
  invocationIndex : naturalAt json "invocation_index" = some detail.invocationIndex
  rangeIndex : naturalAt json "range_index" = some detail.rangeIndex
  inputCount : naturalAt json "input_count" = some detail.inputCount
  parameterBase : naturalAt json "parameter_base" = some detail.parameterBase
  extent : json.get? "extent" = some (extentJson detail)
  addend : json.get? "code_relocation_addend" = some (addendJson detail)

theorem extentJson_fields (detail : PatchDetail) :
    naturalAt (extentJson detail) "file_offset" = some detail.extentFileOffset ∧
      naturalAt (extentJson detail) "old" = some detail.oldExtent ∧
      naturalAt (extentJson detail) "new" = some detail.newExtent := by
  exact ⟨rfl, rfl, rfl⟩

theorem addendJson_fields (detail : PatchDetail) :
    naturalAt (addendJson detail) "file_offset" = some detail.addendFileOffset ∧
      integerAt (addendJson detail) "old" = some detail.oldAddend ∧
      integerAt (addendJson detail) "new" = some detail.newAddend := by
  exact ⟨rfl, rfl, rfl⟩

theorem hasHead_targetJson (detail : PatchDetail) : HasHead (targetJson detail) detail := by
  exact ⟨rfl, rfl, rfl, rfl, rfl, rfl⟩

theorem hasHead_targetJsonV2 (detail : PatchDetail) : HasHead (targetJsonV2 detail) detail := by
  exact ⟨rfl, rfl, rfl, rfl, rfl, rfl⟩

section Head

variable {json : Json} {detail : PatchDetail} (h : HasHead json detail)

include h

theorem readDetail_version1 (htensors : itemsAt json "tensors" = none)
    (helements : naturalAt json "element_count" = some detail.elementCount)
    (hspan : naturalAt json "span_bytes" = some detail.spanBytes)
    (hflags : naturalAt json "contract_flags" = some detail.contractFlags) :
    readDetail json = some { detail with targetFlagsV2 := 0, tensorsV2 := [] } := by
  obtain ⟨hextent, hold, hnew⟩ := extentJson_fields detail
  obtain ⟨haddend, holdAddend, hnewAddend⟩ := addendJson_fields detail
  simp only [readDetail, h.invocationIndex, h.rangeIndex, h.inputCount, h.parameterBase,
    h.extent, h.addend, hextent, hold, hnew, haddend, holdAddend, hnewAddend, htensors,
    helements, hspan, hflags, Option.bind_eq_bind, Option.bind_some]

theorem readDetail_version2 {items : List Json} {tensors : List TensorContractV2}
    {output : TensorContractV2} (hitems : itemsAt json "tensors" = some items)
    (htensors : items.mapM readTensor = some tensors) (houtput : tensors.getLast? = some output)
    (hflags : naturalAt json "target_flags" = some detail.targetFlagsV2) :
    readDetail json = some { detail with
      contractFlags := 0
      elementCount := output.elementCount
      spanBytes := output.spanBytes
      tensorsV2 := tensors } := by
  obtain ⟨hextent, hold, hnew⟩ := extentJson_fields detail
  obtain ⟨haddend, holdAddend, hnewAddend⟩ := addendJson_fields detail
  simp only [readDetail, h.invocationIndex, h.rangeIndex, h.inputCount, h.parameterBase,
    h.extent, h.addend, hextent, hold, hnew, haddend, holdAddend, hnewAddend, hitems,
    htensors, houtput, hflags, Option.bind_eq_bind, Option.bind_some]

end Head

theorem readDetail_detailJson (detail : PatchDetail) :
    readDetail (detailJson detail) = some (shownDetail detail) := by
  unfold detailJson shownDetail
  cases hlast : detail.tensorsV2.getLast? with
  | none =>
    have hnil : detail.tensorsV2 = [] := List.getLast?_eq_none_iff.1 hlast
    rw [if_neg (by simp [hnil]), readDetail_version1 (hasHead_targetJson detail), hnil]
    · rfl
    · rfl
    · rfl
    · rfl
  | some output =>
    have hne : detail.tensorsV2.length ≠ 0 := by
      rintro hzero
      rw [List.eq_nil_of_length_eq_zero hzero] at hlast
      cases hlast
    have hitems : itemsAt (targetJsonV2 detail) "tensors" =
        some (detail.tensorsV2.map tensorJson) := rfl
    have hflags : naturalAt (targetJsonV2 detail) "target_flags" = some detail.targetFlagsV2 :=
      rfl
    have houtput : (detail.tensorsV2.map shownTensor).getLast? = some (shownTensor output) := by
      rw [List.getLast?_map, hlast]
      rfl
    have hread := readDetail_version2 (hasHead_targetJsonV2 detail) hitems
      (mapM_map_eq readTensor_tensorJson _) houtput hflags
    rw [if_pos hne]
    exact hread

/-- The details of the report of a summary. -/
theorem readDetails_reportJson (graphHash elfHash outputHash : String) (summary : PatchSummary) :
    readDetails (reportJson graphHash elfHash outputHash summary) =
      some (summary.details.map shownDetail) := by
  have htargets : itemsAt (reportJson graphHash elfHash outputHash summary) "targets" =
      some (summary.details.map detailJson) := rfl
  unfold readDetails
  rw [htargets]
  exact mapM_map_eq readDetail_detailJson summary.details

/-! ## Details of targets -/

/-- The detail without the sizes of its tensors' structures, which the report leaves out. -/
def withoutSizes (detail : PatchDetail) : PatchDetail :=
  { detail with
    tensorsV2 := detail.tensorsV2.map fun tensor =>
      { tensor with structSize := tensorContractV2Size } }

/-- The role and the precision are values of the enumerations. -/
structure IsNamed (tensor : TensorContractV2) : Prop where
  role : tensor.role = patchblobTensorRoleInputV2 ∨ tensor.role = patchblobTensorRoleOutputV2
  precision : tensor.precision ≤ patchblobTensorPrecisionU32V2

/-- What the validation of a target puts into a detail. -/
structure OfTarget (detail : PatchDetail) : Prop where
  version1 : detail.tensorsV2 = [] → detail.targetFlagsV2 = 0
  version2 : ∀ output ∈ detail.tensorsV2.getLast?, detail.contractFlags = 0 ∧
    detail.elementCount = output.elementCount ∧ detail.spanBytes = output.spanBytes
  named : ∀ tensor ∈ detail.tensorsV2, IsNamed tensor

theorem shownTensor_of_isNamed {tensor : TensorContractV2} (h : IsNamed tensor) :
    shownTensor tensor = { tensor with structSize := tensorContractV2Size } := by
  unfold shownTensor
  rw [if_pos h.precision]
  rcases h.role with hrole | hrole
  · rw [if_pos hrole, hrole]
  · rw [if_neg (by rw [hrole]; decide), hrole]

theorem shownDetail_of_ofTarget {detail : PatchDetail} (h : OfTarget detail) :
    shownDetail detail = withoutSizes detail := by
  unfold shownDetail withoutSizes
  have htensors : detail.tensorsV2.map shownTensor = detail.tensorsV2.map fun tensor =>
      { tensor with structSize := tensorContractV2Size } :=
    List.map_congr_left fun tensor htensor => shownTensor_of_isNamed (h.named tensor htensor)
  cases hlast : detail.tensorsV2.getLast? with
  | none =>
    have hnil := List.getLast?_eq_none_iff.1 hlast
    rw [hnil, ← h.version1 hnil]
    cases detail
    simp_all
  | some output =>
    obtain ⟨hflags, helements, hspan⟩ := h.version2 output hlast
    dsimp only
    rw [htensors, ← helements, ← hspan, hflags]

theorem isNamed_of_checkTensorV2 {inputCount index : ℕ} {tensor : TensorContractV2}
    (h : checkTensorV2 inputCount index tensor = .ok ()) : IsNamed tensor := by
  unfold checkTensorV2 at h
  obtain ⟨hform, -⟩ := refuseIf_bind_eq_ok_iff.1 h
  simp only [not_or, not_not] at hform
  obtain ⟨-, hrole, -, hdtype, -⟩ := hform
  constructor
  · rw [hrole]
    split_ifs
    · exact Or.inl rfl
    · exact Or.inr rfl
  · -- a larger precision is none of the eight that have an element type
    by_contra hlarge
    simp only [patchblobTensorPrecisionU32V2, not_le] at hlarge
    refine hdtype ?_
    unfold dtypeFromPublicPrecisionV2
    rw [if_neg, if_neg, if_neg, if_neg, if_neg, if_neg, if_neg, if_neg] <;>
      exact fun heq => absurd (heq ▸ hlarge) (by decide)

/-- A version of targets whose validation fills a detail consistently. -/
def Describes {τ : Type} (version : TargetVersion τ) : Prop :=
  ∀ ⦃layout parameterBases⦄, layout.Valid → BasesOf layout parameterBases → ∀ ⦃target detail⦄,
    version.validate layout parameterBases target = .ok detail → OfTarget detail

theorem describes_version1 : Describes targetVersion1 := by
  intro layout parameterBases h hbases target detail hvalid
  obtain ⟨-, -, base, inputs, output, -, -, -, -, rfl⟩ :=
    (validateTarget_eq_ok_iff h hbases).1 hvalid
  exact ⟨fun _ => rfl, by simp, by simp⟩

theorem describes_version2 : Describes targetVersion2 := by
  intro layout parameterBases h hbases target detail hvalid
  change validateTargetV2 layout parameterBases target = .ok detail at hvalid
  rcases List.eq_nil_or_concat' target.tensors with hnil | ⟨contracts, contract, htensors⟩
  · unfold validateTargetV2 at hvalid
    rw [h.sectionAt_invocations, h.sectionAt_params, h.sectionAt_ranges, ok_bind, ok_bind,
      ok_bind, refuseIf_bind_eq_ok_iff] at hvalid
    simp [PatchblobTargetV2.tensorCount, hnil] at hvalid
  · obtain ⟨-, hcontract, base, inputs, output, -, -, -, rfl⟩ :=
      (validateTargetV2_eq_ok_iff h hbases htensors).1 hvalid
    unfold checkContractV2 at hcontract
    obtain ⟨_, hforms, -⟩ := bind_eq_ok_iff.1 hcontract
    replace hforms := (checkRange_eq_ok_iff (u := ())).1 hforms
    refine ⟨fun hempty => ?_, fun last hlast => ?_, fun tensor htensor => ?_⟩
    · exact absurd (htensors ▸ hempty) (by simp)
    · change last ∈ target.tensors.getLast? at hlast
      rw [htensors, List.getLast?_concat] at hlast
      cases hlast
      exact ⟨rfl, rfl, rfl⟩
    · change tensor ∈ target.tensors at htensor
      rw [htensors] at htensor
      obtain ⟨index, hindex, rfl⟩ := List.getElem_of_mem htensor
      have hform := hforms index (Nat.zero_le _) hindex
      rw [tensorAt_eq hindex, ok_bind] at hform
      exact isNamed_of_checkTensorV2 hform

end PatchReport

/-- The summary of a patch that follows a plan. -/
def PatchPlan.summary (plan : PatchPlan) (layout : GraphLayout) (image : View)
    (details : List PatchDetail) : PatchSummary :=
  { insertionFileOffset := plan.insertionFileOffset, insertedSize := plan.insertedSize,
    imageBase := plan.imageBase, imageSize := image.size,
    oldSectionTableOffset := layout.sectionTableOffset,
    newSectionTableOffset := plan.shift layout.sectionTableOffset,
    tileCount := layout.tileCount, details := details.map (plan.patchedDetail image.size) }

namespace PatchReport

section Run

variable {τ : Type} {version : TargetVersion τ} {graphBlob image output : View}
  {targets : List τ} {imageAlignment tailPadding : ℕ} {layout : GraphLayout}
  {details : List PatchDetail} {plan : PatchPlan} {summary : PatchSummary}
  (hrun : PatchRun version graphBlob image targets imageAlignment tailPadding layout details plan)

include hrun

/-- The details of a run, before its fields are written. -/
theorem ofTarget_of_patchRun (hversion : Describes version) :
    ∀ detail ∈ details, OfTarget detail := by
  have hrequest := hrun.request_eq
  unfold planRequest at hrequest
  rw [hrun.parse_eq, ok_bind] at hrequest
  obtain ⟨parameterBases, hbases, hrequest⟩ := bind_eq_ok_iff.1 hrequest
  obtain ⟨details', hdetails, hrequest⟩ := bind_eq_ok_iff.1 hrequest
  obtain ⟨_, -, hrequest⟩ := bind_eq_ok_iff.1 hrequest
  cases hrequest
  replace hbases := (invocationParameterBases_spec hrun.valid).value _ hbases
  unfold planTargets at hdetails
  obtain ⟨_, hdetails, hgroups⟩ := bind_eq_ok_iff.1 hdetails
  obtain ⟨_, -, hgroups⟩ := bind_eq_ok_iff.1 hgroups
  cases hgroups
  obtain ⟨hlength, hdetails⟩ := mapRange_eq_ok_iff.1 hdetails
  intro detail hdetail
  obtain ⟨index, hindex, rfl⟩ := List.getElem_of_mem hdetail
  have hplan := hdetails index hindex
  rw [List.getElem?_eq_getElem (hlength ▸ hindex)] at hplan
  obtain ⟨-, hplan⟩ := refuseIf_bind_eq_ok_iff.1 hplan
  obtain ⟨checked, hchecked, hplan⟩ := bind_eq_ok_iff.1 hplan
  obtain ⟨_, -, hplan⟩ := bind_eq_ok_iff.1 hplan
  -- the plan only sets the offset and the old value of the code pointer
  have hof := hversion hrun.valid hbases hchecked
  rw [← Except.ok.inj hplan]
  exact ⟨hof.version1, hof.version2, hof.named⟩

theorem summary_of_patchRun
    (hpatch : patchGraphBlobWith version graphBlob image targets imageAlignment tailPadding =
      .ok (output, summary)) : summary = plan.summary layout image details := by
  unfold patchGraphBlobWith at hpatch
  rw [hrun.request_eq, ok_bind] at hpatch
  obtain ⟨_, -, hpatch⟩ := bind_eq_ok_iff.1 hpatch
  obtain ⟨_, -, hpatch⟩ := bind_eq_ok_iff.1 hpatch
  cases hpatch
  rfl

/-- The output holds the values of the fields that were written. -/
theorem written_of_patchRun {detail : PatchDetail} (hdetail : detail ∈ details) :
    littleEndian (patchedData layout plan image details) (plan.shift detail.extentFileOffset) 4 =
        image.size ∧
      littleEndian (patchedData layout plan image details) (plan.shift detail.addendFileOffset) 8 =
        plan.imageBase := by
  obtain ⟨hextent, haddend⟩ := hrun.fields_fit hdetail
  unfold uint32Max at hextent
  unfold int64Max at haddend
  constructor
  · rw [littleEndian_byteOf fun k hk => patchedData_extent hrun.valid hrun.placed hdetail hk]
    exact Nat.mod_eq_of_lt (by omega)
  · rw [littleEndian_byteOf fun k hk => patchedData_addend hrun.valid hrun.placed hdetail hk]
    exact Nat.mod_eq_of_lt (by omega)

end Run

end PatchReport

open PatchReport

/-- Whatever the details of the targets are, the buffer of a report is large enough, so that
only the number of targets can be refused; the text is a JSON document with a byte to spare,
and the details are read back from it. -/
theorem patch_report_suffices (graphBlob shaveElf outputBlob : View) {summary : PatchSummary}
    (h : summary.Fits) :
    buildReport graphBlob shaveElf outputBlob summary ≠ .error reportTooSmall ∧
      (2048 + summary.details.length * 2048 ≤ sizeMax →
        ∃ text json, buildReport graphBlob shaveElf outputBlob summary = .ok text ∧
          text.length < 2048 + summary.details.length * 2048 ∧ Json.IsDocument json text ∧
          Json.read text = some json ∧
          readDetails json = some (summary.details.map shownDetail) ∧
          ((∀ detail ∈ summary.details, OfTarget detail) →
            readDetails json = some (summary.details.map withoutSizes))) := by
  have hdocument := isDocument_reportText graphBlob shaveElf outputBlob summary
  have hread := readDetails_reportJson (viewHash graphBlob) (viewHash shaveElf)
    (viewHash outputBlob) summary
  rw [buildReport_eq h]
  constructor
  · split_ifs
    · exact nofun
    · exact fun herror => absurd herror (by decide)
  · intro hsize
    refine ⟨_, _, if_pos hsize, length_reportText_lt h, hdocument,
      Json.read_of_isDocument hdocument, hread, fun htargets => ?_⟩
    rw [hread]
    congr 1
    exact List.map_congr_left fun detail hdetail =>
      shownDetail_of_ofTarget (htargets detail hdetail)

/-- The record of a tensor with the largest values. -/
def widestTensor : TensorContractV2 where
  structSize := tensorContractV2Size
  role := patchblobTensorRoleOutputV2
  tensorIndex := 2 ^ 32 - 1
  precision := 2 ^ 32 - 1
  elementCount := 2 ^ 64 - 1
  spanBytes := 2 ^ 64 - 1
  observedFlags := 2 ^ 32 - 1

/-- A version 2 detail with the largest values and the most tensors. -/
def widestDetail : PatchDetail where
  invocationIndex := 2 ^ 32 - 1
  rangeIndex := 2 ^ 32 - 1
  inputCount := 2 ^ 32 - 1
  parameterBase := 2 ^ 64 - 1
  elementCount := 2 ^ 64 - 1
  spanBytes := 2 ^ 64 - 1
  targetFlagsV2 := 2 ^ 32 - 1
  tensorsV2 := List.replicate patchblobTargetV2MaxTensors widestTensor
  extentFileOffset := 2 ^ 64 - 1
  addendFileOffset := 2 ^ 64 - 1
  oldExtent := 2 ^ 32 - 1
  newExtent := 2 ^ 32 - 1
  oldAddend := -2 ^ 63
  newAddend := -2 ^ 63

/-- A summary with the largest values. -/
def widestSummary : PatchSummary where
  insertionFileOffset := 2 ^ 64 - 1
  insertedSize := 2 ^ 64 - 1
  imageBase := 2 ^ 64 - 1
  imageSize := 2 ^ 64 - 1
  oldSectionTableOffset := 2 ^ 64 - 1
  newSectionTableOffset := 2 ^ 64 - 1
  tileCount := 2 ^ 32 - 1
  details := [widestDetail, { widestDetail with tensorsV2 := [] }]

theorem fits_widestSummary : widestSummary.Fits := by
  constructor <;> decide

theorem patch_report_suffices_widest : widestSummary.Fits ∧
    ∃ text json, buildReport (viewOf 4 (by decide) 1) (viewOf 4 (by decide) 2)
        (viewOf 4 (by decide) 3) widestSummary = .ok text ∧ text.length < 3 * 2048 ∧
      Json.IsDocument json text ∧ Json.read text = some json ∧
      readDetails json = some (widestSummary.details.map shownDetail) := by
  obtain ⟨text, json, hreport, hlength, hdocument, hread, hdetails, -⟩ :=
    (patch_report_suffices (viewOf 4 (by decide) 1) (viewOf 4 (by decide) 2)
      (viewOf 4 (by decide) 3) fits_widestSummary).2 (by decide)
  exact ⟨fits_widestSummary, text, json, hreport, hlength, hdocument, hread, hdetails⟩

/-! ## The report of a patch -/

theorem Abi.describes : ∀ abi : Abi, Describes abi.version
  | .v1 => describes_version1
  | .v2 => describes_version2

/-- The report of a patch that succeeded gives the details of its targets in their order, and
the output holds the values that it gives, where it says that they are. -/
theorem patch_reported (abi : Abi) (graphBlob shaveElf image : View) (targets : List abi.Target)
    (imageAlignment tailPadding : ℕ) (output : View) (summary : PatchSummary)
    (hpatch : patchGraphBlobWith abi.version graphBlob image targets imageAlignment tailPadding =
      .ok (output, summary)) (hfits : summary.Fits)
    (hsize : 2048 + targets.length * 2048 ≤ sizeMax) :
    ∃ text json details, buildReport graphBlob shaveElf output summary = .ok text ∧
      Json.read text = some json ∧ readDetails json = some details ∧
      details = summary.details.map withoutSizes ∧
      details.map (fun detail => (detail.invocationIndex, detail.rangeIndex)) =
        targets.map abi.version.selection ∧
      ∀ detail ∈ details,
        littleEndian output.data detail.extentFileOffset 4 = detail.newExtent ∧
          (littleEndian output.data detail.addendFileOffset 8 : ℤ) = detail.newAddend := by
  obtain ⟨layout, planned, plan, hrun, rfl⟩ := patchRun_of_eq_ok abi.lawful hpatch
  have hdetails : summary.details = planned.map (plan.patchedDetail image.size) :=
    congrArg PatchSummary.details (summary_of_patchRun hrun hpatch)
  have hselections := hrun.details_of.selections_eq
  have hlength : summary.details.length = targets.length := by
    have := congrArg List.length hselections
    rwa [List.length_map, List.length_map, ← List.length_map (plan.patchedDetail image.size),
      ← hdetails] at this
  have htargets : ∀ detail ∈ summary.details, OfTarget detail := by
    rw [hdetails]
    refine List.forall_mem_map.2 fun detail hdetail => ?_
    have hof := ofTarget_of_patchRun hrun abi.describes detail hdetail
    exact ⟨hof.version1, hof.version2, hof.named⟩
  obtain ⟨text, json, hreport, -, -, hread, -, hback⟩ :=
    (patch_report_suffices graphBlob shaveElf (patchedView layout plan image planned) hfits).2
      (by rwa [hlength])
  refine ⟨text, json, _, hreport, hread, hback htargets, rfl, ?_, ?_⟩
  · rw [hdetails, List.map_map, List.map_map]
    exact hselections
  · rw [hdetails, List.map_map]
    refine List.forall_mem_map.2 fun detail hdetail => ?_
    obtain ⟨hextent, haddend⟩ := written_of_patchRun hrun hdetail
    exact ⟨hextent, congrArg Nat.cast haddend⟩

/-- A patch of both invocations of the example graph passes the planner. -/
theorem both_request : ExampleGraph.request {} [exampleTarget 0, exampleTarget 1] = .ok true := by
  decide +kernel

theorem both_summary :
    (planRequest (Abi.version .v1) (ExampleGraph.view {}) exampleImage
      [exampleTarget 0, exampleTarget 1] 16 0).map (fun (layout, details, plan) =>
        decide (plan.summary layout exampleImage details).Fits) = .ok true := by
  decide +kernel

theorem patch_reported_both : ∃ output summary text json details,
    patchGraphBlobWith (Abi.version .v1) (ExampleGraph.view {}) exampleImage
      [exampleTarget 0, exampleTarget 1] 16 0 = .ok (output, summary) ∧
    buildReport (ExampleGraph.view {}) exampleImage output summary = .ok text ∧
    Json.read text = some json ∧ readDetails json = some details ∧
    details.map (fun detail => (detail.invocationIndex, detail.rangeIndex)) =
      [(0, 0), (1, 1)] := by
  obtain ⟨layout, details, plan, patched, hrequest, hwrite, hfits⟩ :=
    ExampleGraph.exists_of_request both_request
  obtain ⟨summary, hpatch⟩ :=
    (patchGraphBlobWith_iff (Abi.lawful .v1) hrequest hwrite).2 (hfits.1 rfl)
  obtain ⟨layout, details, plan, hrun, rfl⟩ := patchRun_of_eq_ok (Abi.lawful .v1) hpatch
  obtain ⟨_, hrequest', hsummary⟩ := map_eq_ok_iff.1 both_summary
  cases Except.ok.inj (hrun.request_eq.symm.trans hrequest')
  have hsummary : summary.Fits :=
    summary_of_patchRun hrun hpatch ▸ of_decide_eq_true hsummary
  obtain ⟨text, json, details, hreport, hread, hback, -, hselections, -⟩ :=
    patch_reported .v1 _ exampleImage _ _ _ _ _ _ hpatch hsummary (by decide)
  exact ⟨_, summary, text, json, details, hpatch, hreport, hread, hback, hselections⟩

end Npunlock
