import UnifiedRuntime.Lib.NarrowLoop

/-!
# Info queries

`UrReturnHelper` answers an info query for a value of any kind. With one pointer for both sizes, a
request has the size of the buffer at the size pointer as well.

An array that is converted element by element has a function of its own, which has no check of the
size and a loop with a counter of 32 bits.

- `getInfoImpl_answers`: the common function.
- `convert_answers`: what becomes of an array that is converted.
- `infoQuery_iff`: when the contract holds.
-/

namespace UnifiedRuntime.InfoQuery

/-! ## Requests -/

/-- The memory from `param_value` on, the size that is given, and what is at
`param_value_size_ret`; none is a null pointer. -/
structure Request where
  paramValue : Option (Nat → UInt8)
  paramValueSize : Nat
  paramValueSizeRet : Option Nat

inductive InfoResult where
  | success
  | invalidNullPointer
  | invalidSize

/-- A type with the bytes of its values. -/
structure Ty (α : Type) where
  size : Nat
  bytes : α → List UInt8
  pos : 0 < size
  length : ∀ v, (bytes v).length = size

/-- A string in memory. -/
structure CString where
  chars : List UInt8
  terminated : 0 ∈ chars
  fits : chars.length < 2 ^ 64

/-- An array in memory, of which the elements are returned as those of another type. -/
structure Values {α β : Type} (T : Ty α) (R : Ty β) where
  elems : List α
  fits : elems.length * T.size < 2 ^ 64
  fitsRet : elems.length * R.size < 2 ^ 64

variable {α β : Type} {T : Ty α} {R : Ty β}

/-- Writes bytes to the start of the memory. -/
def store (bytes : List UInt8) (mem : Nat → UInt8) : Nat → UInt8 := fun i =>
  bytes.getD i (mem i)

/-! ## The functions -/

/-- `getInfoImpl`, with the bytes that `assign_func` writes. -/
def getInfoImpl (r : Request) (value : List UInt8) (valueSize : Nat) : InfoResult × Request :=
  if r.paramValue.isNone && r.paramValueSizeRet.isNone then (.invalidNullPointer, r)
  else if r.paramValue.isSome && decide (r.paramValueSize < valueSize) then (.invalidSize, r)
  else (.success, { r with
    paramValue := r.paramValue.map (store value)
    paramValueSizeRet := r.paramValueSizeRet.map fun _ => valueSize })

/-- `getInfo`. -/
def getInfo (T : Ty α) (value : α) (r : Request) : InfoResult × Request :=
  getInfoImpl r (T.bytes value) T.size

/-- `getInfoArray`: `memcpy` takes as many bytes as the size says. -/
def getInfoArray (arraySize : Nat) (value : List UInt8) (r : Request) : InfoResult × Request :=
  getInfoImpl r (value.take (arraySize % 2 ^ 64)) (arraySize % 2 ^ 64)

def strlen (s : CString) : Nat := (s.chars.takeWhile (· ≠ 0)).length

/-- `getInfo` for strings. -/
def getInfoString (s : CString) (r : Request) : InfoResult × Request :=
  getInfoArray (strlen s + 1) s.chars r

def getInfoEmpty (r : Request) : InfoResult × Request := getInfoImpl r [] 0

/-- The elements as those of the other type, one behind the other. -/
def retBytes (cast : α → β) (v : Values T R) : List UInt8 :=
  v.elems.flatMap fun value => R.bytes (cast value)

/-- The buffer is set to zero and then, element by element, to the array. -/
def writeConverted (cast : α → β) (v : Values T R) (fuel size : Nat) :
    Option (Nat → UInt8) → Except Stop (Option (Nat → UInt8))
  | none => .ok none
  | some mem =>
    (narrowFor (fun i => .ok ((v.elems[i.toNat]?.map fun value => R.bytes (cast value)).getD []))
      (UInt64.ofNat v.elems.length) fuel).map fun written =>
        some (store written (store (List.replicate size 0) mem))

/-- `getInfoArray` with another element type. -/
def getInfoArrayConvert (cast : α → β) (v : Values T R) (fuel : Nat) (r : Request) :
    Except Stop (InfoResult × Request) :=
  (writeConverted cast v fuel r.paramValueSize r.paramValue).map fun paramValue =>
    (.success, { r with
      paramValue := paramValue
      paramValueSizeRet := r.paramValueSizeRet.map fun _ => v.elems.length * R.size % 2 ^ 64 })

/-- The overloads of `UrReturnHelper::operator()`. -/
inductive Overload (T : Ty α) (R : Ty β) where
  | scalar (value : α)
  | string (s : CString)
  | array (v : Values T T)
  | convert (cast : α → β) (v : Values T R)
  | nullopt

def Overload.call (fuel : Nat) (r : Request) :
    Overload T R → Except Stop (InfoResult × Request)
  | .scalar value => .ok (getInfo T value r)
  | .string s => .ok (getInfoString s r)
  | .array v => .ok (getInfoArray (v.elems.length * T.size) (v.elems.flatMap T.bytes) r)
  | .convert cast v => getInfoArrayConvert cast v fuel r
  | .nullopt => .ok (getInfoEmpty r)

/-! ## Answers -/

/-- The bytes of the whole value. -/
def Overload.value : Overload T R → List UInt8
  | .scalar value => T.bytes value
  | .string s => s.chars.takeWhile (· ≠ 0) ++ [0]
  | .array v => v.elems.flatMap T.bytes
  | .convert cast v => retBytes cast v
  | .nullopt => []

/-- The call returns, whatever fuel there is from some amount on. -/
def Overload.Answers (o : Overload T R) (r : Request) (answer : InfoResult × Request) : Prop :=
  ∃ enough, ∀ fuel, enough ≤ fuel → o.call fuel r = .ok answer

/-- An answer keeps to the buffer, is complete or an error, and an error for a buffer that is too
small leaves all as it was. -/
structure Proper (o : Overload T R) (r : Request) (answer : InfoResult × Request) : Prop where
  inside : ∀ mem, r.paramValue = some mem → ∃ mem', answer.2.paramValue = some mem' ∧
    (∀ i, r.paramValueSize ≤ i → mem' i = mem i) ∧
    (answer.1 = .success → ∀ i (h : i < o.value.length), mem' i = o.value[i])
  tooSmall : r.paramValue.isSome = true → r.paramValueSize < o.value.length →
    answer.1 ≠ .success ∧ answer.2 = r

/-- **The contract**: the answer is proper, and a query for the size and then one with a buffer of
that size give the value. -/
structure Contract (o : Overload T R) (r : Request) : Prop where
  proper : ∃ answer, o.Answers r answer ∧ Proper o r answer
  fetch : ∀ anySize old mem sizeRet, ∃ size r', o.Answers ⟨none, anySize, some old⟩ (.success, r') ∧
    r'.paramValueSizeRet = some size ∧ ∃ mem' ret, o.Answers ⟨some mem, size, sizeRet⟩
      (.success, ⟨some mem', size, ret⟩) ∧ ∀ i (h : i < o.value.length), mem' i = o.value[i]

/-- A conversion has fewer than 2^32 elements, and a buffer for them has their size. -/
def Overload.Careful (r : Request) : Overload T R → Prop
  | .convert _ v => v.elems.length < 2 ^ 32 ∧
    (r.paramValue.isSome = true → v.elems.length * R.size ≤ r.paramValueSize)
  | _ => True

/-! ## The common function -/

theorem store_lt {bytes : List UInt8} {mem : Nat → UInt8} {i : Nat} (h : i < bytes.length) :
    store bytes mem i = bytes[i] :=
  List.getD_eq_getElem bytes (mem i) h

theorem store_ge {bytes : List UInt8} {mem : Nat → UInt8} {i : Nat} (h : bytes.length ≤ i) :
    store bytes mem i = mem i :=
  List.getD_eq_default bytes (mem i) h

theorem length_flatMap_bytes (f : α → List UInt8) {n : Nat} (hf : ∀ v, (f v).length = n)
    (l : List α) : (l.flatMap f).length = l.length * n := by
  induction l with
  | nil => exact (Nat.zero_mul n).symm
  | cons v l ih =>
    rw [List.flatMap_cons, List.length_append, hf, ih, List.length_cons, Nat.succ_mul, Nat.add_comm]

/-- What is copied of a string is all of it. -/
theorem string_take (s : CString) :
    s.chars.take (strlen s + 1) = s.chars.takeWhile (· ≠ 0) ++ [0] := by
  have hsplit := List.takeWhile_append_dropWhile (p := (· ≠ 0)) (l := s.chars)
  obtain ⟨x, rest, hdrop⟩ : ∃ x rest, s.chars.dropWhile (· ≠ 0) = x :: rest := by
    refine List.exists_cons_of_ne_nil fun hnil => ?_
    have hall := List.dropWhile_eq_nil_iff.mp hnil 0 s.terminated
    simp at hall
  have hx : x = 0 := by
    have hhead := List.head?_dropWhile_not (· ≠ 0) s.chars
    rw [hdrop] at hhead
    simpa using hhead
  rw [hdrop, hx] at hsplit
  unfold strlen
  generalize s.chars.takeWhile (· ≠ 0) = front at hsplit ⊢
  rw [← hsplit, List.take_append]
  simp

/-- **The common function** answers properly, and fetches what was asked for. -/
theorem contract_of_getInfoImpl {o : Overload T R} (r : Request)
    (h : ∀ fuel r, o.call fuel r = .ok (getInfoImpl r o.value o.value.length)) : Contract o r := by
  constructor
  · refine ⟨_, ⟨0, fun fuel _ => h fuel r⟩, ?_, ?_⟩
    · intro mem hmem
      unfold getInfoImpl
      rw [hmem]
      by_cases hsmall : r.paramValueSize < o.value.length
      · exact ⟨mem, by simp [hsmall, hmem], fun _ _ => rfl, by simp [hsmall]⟩
      · exact ⟨store o.value mem, by simp [hsmall], fun i hi => store_ge (by omega),
          fun _ i hi => store_lt hi⟩
    · intro hmem hsmall
      unfold getInfoImpl
      simp [hmem, hsmall, Option.isSome_iff_ne_none.mp hmem]
  · intro anySize old mem sizeRet
    refine ⟨o.value.length, ⟨none, anySize, some o.value.length⟩, ⟨0, fun fuel _ => h fuel _⟩, rfl,
      store o.value mem, sizeRet.map fun _ => o.value.length, ⟨0, fun fuel _ => ?_⟩,
      fun i hi => store_lt hi⟩
    rw [h fuel]
    unfold getInfoImpl
    simp

/-! ## Conversions -/

theorem value_length_convert (cast : α → β) (v : Values T R) :
    (retBytes cast v).length = v.elems.length * R.size :=
  length_flatMap_bytes _ (fun value => R.length (cast value)) v.elems

theorem flatMap_range (f : α → List UInt8) (l : List α) :
    ((List.range l.length).flatMap fun k => (l[k]?.map f).getD []) = l.flatMap f := by
  induction l with
  | nil => rfl
  | cons v l ih =>
    rw [List.length_cons, List.range_succ_eq_map, List.flatMap_cons, List.flatMap_map,
      List.flatMap_cons, ← ih]
    rfl

/-- The rounds put out the elements one after the other. -/
theorem rounds_eq (cast : α → β) (v : Values T R) (hlength : v.elems.length < 2 ^ 32) :
    ((List.range v.elems.length).flatMap fun k =>
        (v.elems[(UInt32.ofNat k).toNat]?.map fun value => R.bytes (cast value)).getD []) =
      retBytes cast v := by
  refine (List.flatMap_congr fun k hk => ?_).trans (flatMap_range _ v.elems)
  have hk := List.mem_range.mp hk
  rw [UInt32.toNat_ofNat', Nat.mod_eq_of_lt (by omega)]

/-- What is answered to a conversion: whatever the size is, all elements are written. -/
def converted (cast : α → β) (v : Values T R) (r : Request) : InfoResult × Request :=
  (.success, { r with
    paramValue := r.paramValue.map fun mem =>
      store (retBytes cast v) (store (List.replicate r.paramValueSize 0) mem)
    paramValueSizeRet := r.paramValueSizeRet.map fun _ => v.elems.length * R.size })

/-- **A conversion** without a buffer, or with fewer than 2^32 elements, returns. -/
theorem convert_answers (cast : α → β) (v : Values T R) (r : Request)
    (answer : InfoResult × Request) : (Overload.convert cast v).Answers r answer ↔
      (r.paramValue.isSome = true → v.elems.length < 2 ^ 32) ∧ answer = converted cast v r := by
  have hbound : (UInt64.ofNat v.elems.length).toNat = v.elems.length := by
    have hle : v.elems.length * 1 ≤ v.elems.length * T.size := Nat.mul_le_mul_left _ T.pos
    have hfits := v.fits
    exact Nat.mod_eq_of_lt (by omega)
  show (∃ enough, ∀ fuel, enough ≤ fuel → getInfoArrayConvert cast v fuel r = .ok answer) ↔ _
  unfold getInfoArrayConvert converted
  rw [Nat.mod_eq_of_lt v.fitsRet]
  cases hmem : r.paramValue with
  | none =>
    refine ⟨fun ⟨enough, h⟩ => ⟨nofun, ?_⟩, fun ⟨_, h⟩ => ⟨0, fun _ _ => congrArg Except.ok h.symm⟩⟩
    exact (Except.ok.inj (h enough (Nat.le_refl _))).symm
  | some mem =>
    constructor
    · rintro ⟨enough, h⟩
      have h := h enough (Nat.le_refl _)
      unfold writeConverted at h
      cases hloop : narrowFor (fun i => .ok ((v.elems[i.toNat]?.map fun value =>
          R.bytes (cast value)).getD [])) (UInt64.ofNat v.elems.length) enough with
      | error stop =>
        rw [hloop] at h
        cases h
      | ok written =>
        rw [hloop] at h
        obtain ⟨hlength, _, rfl⟩ := narrowFor_pure.mp hloop
        rw [hbound] at hlength h
        rw [rounds_eq cast v hlength] at h
        exact ⟨fun _ => hlength, (Except.ok.inj h).symm⟩
    · rintro ⟨hlength, rfl⟩
      have hlength := hlength rfl
      refine ⟨v.elems.length + 1, fun fuel hfuel => ?_⟩
      have hloop := (@narrowFor_pure UInt8 (UInt64.ofNat v.elems.length) _ fuel fun i =>
        (v.elems[i.toNat]?.map fun value => R.bytes (cast value)).getD []).mpr
          ⟨by omega, by omega, rfl⟩
      unfold writeConverted
      rw [hloop, hbound, rounds_eq cast v hlength]
      rfl

/-- A conversion that is careful. -/
theorem contract_convert_iff (cast : α → β) (v : Values T R) (r : Request) :
    Contract (Overload.convert cast v) r ↔ (Overload.convert cast v).Careful r := by
  have hvalue : (Overload.convert cast v).value.length = v.elems.length * R.size :=
    value_length_convert cast v
  constructor
  · rintro ⟨⟨answer, hanswer, hproper⟩, hfetch⟩
    obtain ⟨size, _, _, _, mem', ret, hanswer', _⟩ := hfetch 0 0 (fun _ => 0) none
    refine ⟨((convert_answers ..).mp hanswer').1 rfl, fun hmem => ?_⟩
    by_contra hsmall
    refine (hproper.tooSmall hmem (by omega)).1 ?_
    rw [((convert_answers ..).mp hanswer).2]
    rfl
  · rintro ⟨hlength, hsize⟩
    refine ⟨⟨_, (convert_answers ..).mpr ⟨fun _ => hlength, rfl⟩, ?_, ?_⟩, ?_⟩
    · intro mem hmem
      refine ⟨_, congrArg (Option.map _) hmem, fun i hi => ?_, fun _ i hi => store_lt hi⟩
      have hle := hsize (by rw [hmem]; rfl)
      dsimp only
      rw [store_ge (by rw [value_length_convert cast v]; omega), store_ge (by simpa using hi)]
    · intro hmem hsmall
      have hle := hsize hmem
      omega
    · intro anySize old mem sizeRet
      exact ⟨v.elems.length * R.size, _, (convert_answers ..).mpr ⟨nofun, rfl⟩, rfl, _, _,
        (convert_answers ..).mpr ⟨fun _ => hlength, rfl⟩, fun i hi => store_lt hi⟩

/-- **The contract of all overloads** holds exactly if a conversion is careful. -/
theorem infoQuery_iff (o : Overload T R) (r : Request) : Contract o r ↔ o.Careful r := by
  cases o with
  | convert cast v => exact contract_convert_iff cast v r
  | scalar value =>
    refine iff_of_true (contract_of_getInfoImpl r fun _ _ => ?_) trivial
    unfold Overload.value
    rw [T.length]
    rfl
  | string s =>
    refine iff_of_true (contract_of_getInfoImpl r fun _ r => ?_) trivial
    have htake := string_take s
    have hlength : (s.chars.takeWhile (· ≠ 0) ++ [0]).length = strlen s + 1 := List.length_append
    have hle : strlen s + 1 ≤ s.chars.length := by
      rw [← hlength, ← htake, List.length_take]
      exact Nat.min_le_right ..
    show Except.ok (getInfoImpl r (s.chars.take ((strlen s + 1) % 2 ^ 64)) _) =
      Except.ok (getInfoImpl r (s.chars.takeWhile (· ≠ 0) ++ [0])
        (s.chars.takeWhile (· ≠ 0) ++ [0]).length)
    rw [Nat.mod_eq_of_lt (hle.trans_lt s.fits), htake, hlength]
  | array v =>
    refine iff_of_true (contract_of_getInfoImpl r fun _ r => ?_) trivial
    have hlength : (Overload.array v : Overload T R).value.length = v.elems.length * T.size :=
      length_flatMap_bytes _ T.length v.elems
    show Except.ok (getInfoImpl r ((v.elems.flatMap T.bytes).take _) _) = _
    rw [Nat.mod_eq_of_lt v.fits, hlength]
    exact congrArg (fun l => Except.ok (getInfoImpl r l _)) (List.take_of_length_le hlength.le)
  | nullopt => exact iff_of_true (contract_of_getInfoImpl r fun _ _ => rfl) trivial

/-- Integers of one and of two bytes. -/
def oneByte : Ty UInt8 := ⟨1, fun v => [v], by decide, fun _ => rfl⟩

def twoBytes : Ty UInt8 := ⟨2, fun v => [v, 0], by decide, fun _ => rfl⟩

/-- **Three elements of two bytes** are written to a buffer of one byte, and that is a success. -/
theorem conversion_overflows : ¬ Contract (T := oneByte) (R := twoBytes)
    (.convert id ⟨[1, 2, 3], by decide, by decide⟩) ⟨some fun _ => 0xff, 1, none⟩ := by
  rintro ⟨⟨answer, ⟨enough, hanswer⟩, hproper⟩, _⟩
  obtain rfl := Except.ok.inj ((hanswer (enough + 4) (Nat.le_add_right ..)).symm.trans rfl)
  exact (hproper.tooSmall rfl (by decide)).1 rfl

end UnifiedRuntime.InfoQuery
