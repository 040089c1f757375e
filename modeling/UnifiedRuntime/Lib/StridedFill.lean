import UnifiedRuntime.Lib.PatternFill

/-!
# Words, rows and columns

What a pattern is written with when the machine can only set words: a range of one word again and
again, and columns, which are one piece of each row. Places are offsets from the start of the
range, which do not wrap.

- `byteOf_word`: the bytes of a little-endian word.
- `setRows_eq`, `setColumns_eq`: what rows and columns write.
- `base_columns`, `base_evenColumns`: a range of the first word and columns for the others.
- `set_filled`: the same when all words are the first.
- `Filled.tiles_iff`: when such a range has the pattern everywhere.
-/

namespace UnifiedRuntime.PatternFill

/-! ## Words -/

/-- The little-endian word of `width` bytes from `k` on. -/
def word (bytes : Nat → UInt8) : Nat → Nat → Nat
  | _, 0 => 0
  | k, width + 1 => (bytes k).toNat + 256 * word bytes (k + 1) width

/-- The bytes of a word. -/
def byteOf (value i : Nat) : UInt8 := UInt8.ofNat (value / 256 ^ i)

variable {bytes data pattern : Nat → UInt8} {mem : Bytes} {dst a : UInt64}
  {i k width pitch height size : Nat}

theorem byteOf_word : ∀ {width k i : Nat}, i < width → byteOf (word bytes k width) i = bytes (k + i)
  | 0, _, _, h => absurd h (Nat.not_lt_zero _)
  | width + 1, k, 0, _ => by
    have hlt := (bytes k).toNat_lt
    show byteOf _ 0 = bytes k
    unfold byteOf
    rw [word]
    apply UInt8.toNat.inj
    rw [UInt8.toNat_ofNat']
    omega
  | width + 1, k, i + 1, h => by
    have hrest : word bytes k (width + 1) / 256 = word bytes (k + 1) width := by
      have hlt := (bytes k).toNat_lt
      rw [word]
      omega
    have hnext := byteOf_word (Nat.lt_of_succ_lt_succ h) (k := k + 1)
    unfold byteOf at hnext ⊢
    rw [Nat.pow_succ', ← Nat.div_div_eq_div_mul, hrest, hnext, Nat.add_right_comm, Nat.add_assoc]

/-- Words are equal when their bytes are. -/
theorem word_eq_iff {k k' : Nat} :
    word bytes k width = word bytes k' width ↔ ∀ i < width, bytes (k + i) = bytes (k' + i) := by
  constructor
  · intro h i hi
    have hl : byteOf (word bytes k width) i = bytes (k + i) := byteOf_word hi
    have hr : byteOf (word bytes k' width) i = bytes (k' + i) := byteOf_word hi
    rw [← hl, h, hr]
  · intro h
    induction width generalizing k k' with
    | zero => rfl
    | succ width ih =>
      have hfirst := h 0 (Nat.succ_pos width)
      have hrest : ∀ i < width, bytes (k + 1 + i) = bytes (k' + 1 + i) := by
        intro i hi
        have := h (i + 1) (Nat.succ_lt_succ hi)
        rwa [← Nat.add_assoc, Nat.add_right_comm, ← Nat.add_assoc, Nat.add_right_comm k'] at this
      rw [word, word, ih hrest]
      rw [Nat.add_zero, Nat.add_zero] at hfirst
      rw [hfirst]

/-! ## Pieces -/

/-- The memory after `size` bytes of `data` are written from `dst` on. -/
def set (data : Nat → UInt8) (dst : UInt64) (size : Nat) (mem : Bytes) : Bytes := fun a =>
  if (a - dst).toNat < size then data (a - dst).toNat else mem a

theorem set_congr {data' : Nat → UInt8} (h : ∀ i < size, data i = data' i) :
    set data dst size mem = set data' dst size mem := by
  funext a
  unfold set
  split
  next hin => exact h _ hin
  next => rfl

/-- What is written at `k` bytes from the start. -/
theorem set_offset (hk : k + size ≤ 2 ^ 64) :
    set data (dst + UInt64.ofNat k) size mem a =
      if k ≤ (a - dst).toNat ∧ (a - dst).toNat < k + size then data ((a - dst).toNat - k)
      else mem a := by
  have ho := (a - dst).toNat_lt
  have hnat : (a - (dst + UInt64.ofNat k)).toNat =
      (2 ^ 64 - k % 2 ^ 64 + (a - dst).toNat) % 2 ^ 64 := by
    rw [sub_add_offset, UInt64.toNat_sub, UInt64.toNat_ofNat']
  unfold set
  by_cases hin : k ≤ (a - dst).toNat ∧ (a - dst).toNat < k + size
  · have hoff : (a - (dst + UInt64.ofNat k)).toNat = (a - dst).toNat - k := by
      omega
    rw [if_pos hin, hoff, if_pos (by omega)]
  · rw [if_neg hin, if_neg]
    omega

/-- The memory after a piece is written in each of `height` rows. -/
def setRows (data : Nat → UInt8) (dst : UInt64) (pitch width height : Nat) (mem : Bytes) : Bytes :=
  (List.range height).foldl
    (fun mem r => set data (dst + UInt64.ofNat (r * pitch)) width mem) mem

theorem setRows_succ : setRows data dst pitch width (height + 1) mem =
    set data (dst + UInt64.ofNat (height * pitch)) width
      (setRows data dst pitch width height mem) := by
  unfold setRows
  rw [List.range_succ, List.foldl_append]
  rfl

theorem setRows_congr {data' : Nat → UInt8} (h : ∀ i < width, data i = data' i) :
    setRows data dst pitch width height mem = setRows data' dst pitch width height mem := by
  exact List.foldl_ext _ _ _ fun mem r _ => set_congr h

/-- Where in its row an offset is. -/
theorem row_iff {o h : Nat} (hle : k + width ≤ pitch) :
    (k + h * pitch ≤ o ∧ o < k + h * pitch + width) ↔
      o / pitch = h ∧ k ≤ o % pitch ∧ o % pitch < k + width := by
  have hsplit := Nat.div_add_mod' o pitch
  constructor
  · rintro ⟨hlo, hhi⟩
    have hdiv : o / pitch = h := by
      refine Nat.div_eq_of_lt_le (by omega) ?_
      rw [Nat.succ_mul]
      omega
    rw [hdiv] at hsplit
    exact ⟨hdiv, by omega, by omega⟩
  · rintro ⟨hdiv, hlo, hhi⟩
    rw [hdiv] at hsplit
    omega

/-- **A piece of each row**, `k` bytes from its start. -/
theorem setRows_eq (hle : k + width ≤ pitch) (hfit : height * pitch ≤ 2 ^ 64) :
    setRows data (dst + UInt64.ofNat k) pitch width height mem a =
      if (a - dst).toNat / pitch < height ∧ k ≤ (a - dst).toNat % pitch ∧
          (a - dst).toNat % pitch < k + width then data ((a - dst).toNat % pitch - k)
      else mem a := by
  induction height with
  | zero =>
    rfl
  | succ h ih =>
    have hsucc : (h + 1) * pitch = h * pitch + pitch := Nat.succ_mul _ _
    have hplace : dst + UInt64.ofNat k + UInt64.ofNat (h * pitch) =
        dst + UInt64.ofNat (k + h * pitch) := by
      rw [UInt64.add_assoc, ← UInt64.ofNat_add]
    rw [setRows_succ, hplace, set_offset (by omega), ih (by omega)]
    by_cases hin : k ≤ (a - dst).toNat % pitch ∧ (a - dst).toNat % pitch < k + width
    · have hrow := row_iff (o := (a - dst).toNat) (h := h) hle
      by_cases hlast : (a - dst).toNat / pitch = h
      · have hsplit := Nat.div_add_mod' (a - dst).toNat pitch
        rw [hlast] at hsplit
        rw [if_pos (hrow.mpr ⟨hlast, hin⟩), if_pos ⟨by omega, hin⟩]
        congr 1
        omega
      · rw [if_neg (fun h => hlast (hrow.mp h).1)]
        exact if_congr (and_congr_left fun _ => by omega) rfl rfl
    · rw [if_neg (fun h => hin ((row_iff hle).mp h).2), if_neg (fun h => hin h.2),
        if_neg (fun h => hin h.2)]

/-- Rows without gaps. -/
theorem setRows_whole (hpos : 0 < width) (hfit : height * width ≤ 2 ^ 64) :
    setRows data dst width width height mem =
      set (fun o => data (o % width)) dst (height * width) mem := by
  funext a
  have hrows := @setRows_eq data mem dst a 0 width width height (by omega) hfit
  have hrow : (a - dst).toNat / width < height ↔ (a - dst).toNat < height * width :=
    Nat.div_lt_iff_lt_mul hpos
  have hmod := Nat.mod_lt (a - dst).toNat hpos
  have hzero : dst + UInt64.ofNat 0 = dst := UInt64.add_zero dst
  rw [hzero] at hrows
  rw [hrows]
  exact if_congr ⟨fun h => hrow.mp h.1, fun h => ⟨hrow.mpr h, by omega, by omega⟩⟩ rfl rfl

/-- Columns of the pattern, each with its place and width. -/
def setColumns (pattern : Nat → UInt8) (dst : UInt64) (pitch height : Nat)
    (columns : List (Nat × Nat)) (mem : Bytes) : Bytes :=
  columns.foldl (fun mem c =>
    setRows (fun i => pattern (c.1 + i)) (dst + UInt64.ofNat c.1) pitch c.2 height mem) mem

/-- **Columns** write the pattern where they are. -/
theorem setColumns_eq {columns : List (Nat × Nat)} (hle : ∀ c ∈ columns, c.1 + c.2 ≤ pitch)
    (hfit : height * pitch ≤ 2 ^ 64) :
    setColumns pattern dst pitch height columns mem a =
      if (a - dst).toNat / pitch < height ∧ ∃ c ∈ columns, c.1 ≤ (a - dst).toNat % pitch ∧
          (a - dst).toNat % pitch < c.1 + c.2 then pattern ((a - dst).toNat % pitch)
      else mem a := by
  induction columns generalizing mem with
  | nil =>
    rw [if_neg]
    · rfl
    · rintro ⟨-, c, hc, -⟩
      cases hc
  | cons c columns ih =>
    have hcons : setColumns pattern dst pitch height (c :: columns) mem =
        setColumns pattern dst pitch height columns
          (setRows (fun i => pattern (c.1 + i)) (dst + UInt64.ofNat c.1) pitch c.2 height mem) := rfl
    rw [hcons, ih fun c' hc' => hle c' (List.mem_cons_of_mem _ hc'),
      setRows_eq (hle c List.mem_cons_self) hfit]
    by_cases hrest : (a - dst).toNat / pitch < height ∧ ∃ c ∈ columns,
        c.1 ≤ (a - dst).toNat % pitch ∧ (a - dst).toNat % pitch < c.1 + c.2
    · obtain ⟨hrow, c', hc', hin⟩ := hrest
      rw [if_pos ⟨hrow, c', hc', hin⟩, if_pos ⟨hrow, c', List.mem_cons_of_mem _ hc', hin⟩]
    · rw [if_neg hrest]
      by_cases hfirst : (a - dst).toNat / pitch < height ∧ c.1 ≤ (a - dst).toNat % pitch ∧
          (a - dst).toNat % pitch < c.1 + c.2
      · rw [if_pos hfirst, if_pos ⟨hfirst.1, c, List.mem_cons_self, hfirst.2⟩]
        congr 1
        omega
      · rw [if_neg hfirst, if_neg]
        rintro ⟨hrow, c', hc', hin⟩
        rcases List.mem_cons.mp hc' with rfl | hc'
        · exact hfirst ⟨hrow, hin⟩
        · exact hrest ⟨hrow, c', hc', hin⟩

/-! ## The whole range -/

/-- The bytes from `dst` on are the pattern again and again, and the others are as before. -/
def Tiles (pattern : Nat → UInt8) (dst : UInt64) (patternSize size : Nat)
    (write : Bytes → Bytes) : Prop :=
  ∀ mem a, write mem a =
    if (a - dst).toNat < size then pattern ((a - dst).toNat % patternSize) else mem a

/-- Ranges that are to have the same bytes are written the same way. -/
theorem Tiles.unique {word : Nat → UInt8} {p w n : Nat} {write write' : Bytes → Bytes}
    (h : Tiles pattern dst p n write) (h' : Tiles word dst w n write')
    (hsame : ∀ i < n, pattern (i % p) = word (i % w)) : write = write' := by
  funext mem a
  rw [h mem a, h' mem a]
  split
  next hin => exact hsame _ hin
  next => rfl

/-- **A range of the first word, and columns for the others.** -/
theorem base_columns {patternSize base : Nat} {columns : List (Nat × Nat)}
    (hw : width ∣ patternSize) (hle : ∀ c ∈ columns, c.1 + c.2 ≤ patternSize)
    (hcover : ∀ r < patternSize, width ≤ r ↔ ∃ c ∈ columns, c.1 ≤ r ∧ r < c.1 + c.2)
    (hpos : 0 < patternSize) (hbase : height * patternSize ≤ base) (hfit : base ≤ 2 ^ 64) :
    setColumns pattern dst patternSize height columns
        (set (fun o => pattern (o % width)) dst base mem) a =
      if (a - dst).toNat < height * patternSize then pattern ((a - dst).toNat % patternSize)
      else if (a - dst).toNat < base then pattern ((a - dst).toNat % width) else mem a := by
  have hrow : (a - dst).toNat / patternSize < height ↔ (a - dst).toNat < height * patternSize :=
    Nat.div_lt_iff_lt_mul hpos
  have hcol := hcover ((a - dst).toNat % patternSize) (Nat.mod_lt _ hpos)
  rw [setColumns_eq hle (Nat.le_trans hbase hfit)]
  by_cases hin : (a - dst).toNat < height * patternSize
  · rw [if_pos hin]
    by_cases hword : width ≤ (a - dst).toNat % patternSize
    · rw [if_pos ⟨hrow.mpr hin, hcol.mp hword⟩]
    · -- in the first word
      rw [if_neg (fun h => hword (hcol.mpr h.2))]
      unfold set
      rw [if_pos (by omega)]
      dsimp only
      rw [← Nat.mod_mod_of_dvd _ hw, Nat.mod_eq_of_lt (Nat.lt_of_not_le hword)]
  · rw [if_neg hin, if_neg (fun h => hin (hrow.mp h.1))]
    rfl

/-- Columns of one width, one behind the other. -/
def evenColumns (first width n : Nat) : List (Nat × Nat) :=
  (List.range n).map fun s => (first + s * width, width)

theorem mem_evenColumns {first n : Nat} {c : Nat × Nat} :
    c ∈ evenColumns first width n ↔ ∃ s < n, c = (first + s * width, width) := by
  unfold evenColumns
  rw [List.mem_map]
  constructor
  · rintro ⟨s, hs, rfl⟩
    exact ⟨s, List.mem_range.mp hs, rfl⟩
  · rintro ⟨s, hs, rfl⟩
    exact ⟨s, List.mem_range.mpr hs, rfl⟩

/-- They cover what is behind the first word. -/
theorem evenColumns_cover {first n r : Nat} (hwidth : 0 < width) (hr : r < first + n * width) :
    first ≤ r ↔ ∃ c ∈ evenColumns first width n, c.1 ≤ r ∧ r < c.1 + c.2 := by
  constructor
  · intro hle
    have hsplit := Nat.div_add_mod' (r - first) width
    have hmod := Nat.mod_lt (r - first) hwidth
    refine ⟨_, mem_evenColumns.mpr ⟨(r - first) / width, ?_, rfl⟩, ?_, ?_⟩
    · rw [Nat.div_lt_iff_lt_mul hwidth]
      omega
    · omega
    · omega
  · rintro ⟨c, hc, hlo, -⟩
    obtain ⟨s, -, rfl⟩ := mem_evenColumns.mp hc
    omega

/-- **A range of the first word, and columns of one width behind it.** -/
theorem base_evenColumns {first n patternSize base : Nat} (hwidth : 0 < width)
    (hsize : patternSize = first + n * width) (hfirst : first ∣ patternSize)
    (hpos : 0 < patternSize) (hbase : height * patternSize ≤ base) (hfit : base ≤ 2 ^ 64) :
    setColumns pattern dst patternSize height (evenColumns first width n)
        (set (fun o => pattern (o % first)) dst base mem) a =
      if (a - dst).toNat < height * patternSize then pattern ((a - dst).toNat % patternSize)
      else if (a - dst).toNat < base then pattern ((a - dst).toNat % first) else mem a := by
  refine base_columns hfirst (fun c hc => ?_) (fun r hr => ?_) hpos hbase hfit
  · obtain ⟨s, hs, rfl⟩ := mem_evenColumns.mp hc
    have hmul : (s + 1) * width ≤ n * width := Nat.mul_le_mul_right _ hs
    rw [Nat.succ_mul] at hmul
    omega
  · rw [hsize] at hr
    exact evenColumns_cover hwidth hr

/-- Whole patterns as far as they fit, then whole words from the start of one. -/
def Filled (pattern : Nat → UInt8) (dst : UInt64) (patternSize wordSize size : Nat)
    (write : Bytes → Bytes) : Prop :=
  ∀ mem a, write mem a =
    if (a - dst).toNat < size / patternSize * patternSize then
      pattern ((a - dst).toNat % patternSize)
    else if (a - dst).toNat < size / wordSize * wordSize then pattern ((a - dst).toNat % wordSize)
    else mem a

/-- Whole patterns end before whole words do. -/
theorem patterns_le_words {p w : Nat} (hdvd : w ∣ p) : size / p * p ≤ size / w * w := by
  have hmul : w ∣ size / p * p := Nat.dvd_trans hdvd (Nat.dvd_mul_left p _)
  rw [← Nat.div_mul_cancel hmul]
  exact Nat.mul_le_mul_right w (Nat.div_le_div_right (Nat.div_mul_le_self size p))

theorem Filled.unique {p w n : Nat} {write write' : Bytes → Bytes}
    (h : Filled pattern dst p w n write) (h' : Filled pattern dst p w n write') :
    write = write' := by
  funext mem a
  rw [h mem a, h' mem a]

/-- A size that is a multiple of the pattern's is filled with patterns. -/
theorem filled_iff_tiles {p w : Nat} {write : Bytes → Bytes} (hp : size % p = 0) :
    Filled pattern dst p w size write ↔ Tiles pattern dst p size write := by
  have hall := Nat.div_mul_cancel (Nat.dvd_of_mod_eq_zero hp)
  have hle := Nat.div_mul_le_self size w
  have hsame : ∀ (mem : Bytes) a, (if (a - dst).toNat < size / p * p then
      pattern ((a - dst).toNat % p)
    else if (a - dst).toNat < size / w * w then pattern ((a - dst).toNat % w) else mem a) =
      if (a - dst).toNat < size then pattern ((a - dst).toNat % p) else mem a := by
    intro mem a
    rw [hall]
    split
    next => rfl
    next hout => rw [if_neg (by omega)]
  constructor
  · intro h mem a
    rw [h mem a, hsame]
  · intro h mem a
    rw [h mem a, hsame]

/-- **Other sizes** are right if words reach the end and the pattern goes on as it began. -/
theorem Filled.tiles_iff {p w : Nat} {write : Bytes → Bytes} (hp : 0 < p) (hdvd : w ∣ p)
    (hsize : size < 2 ^ 64) (h : Filled pattern dst p w size write) :
    Tiles pattern dst p size write ↔
      size % w = 0 ∧ ∀ r < size % p, pattern r = pattern (r % w) := by
  have hsplit := Nat.div_add_mod' size p
  have hwords := Nat.div_add_mod' size w
  have hplace : ∀ o < size, (dst + UInt64.ofNat o - dst).toNat = o := by
    intro o ho
    rw [UInt64.add_comm, UInt64.add_sub_cancel, UInt64.toNat_ofNat', Nat.mod_eq_of_lt (by omega)]
  -- the word that an offset behind the last pattern is in
  have hmod : ∀ r, (size / p * p + r) % w = r % w := by
    obtain ⟨m, rfl⟩ := hdvd
    intro r
    rw [Nat.mul_left_comm, Nat.mul_add_mod]
  constructor
  · intro htiles
    have hend : size % w = 0 := by
      by_contra hne
      -- the byte behind the last word, in a memory that differs from the pattern
      have hbyte := htiles (fun _ => pattern (size / w * w % p) + 1)
        (dst + UInt64.ofNat (size / w * w))
      have hle : size / p * p ≤ size / w * w := patterns_le_words hdvd
      rw [h, hplace _ (by omega), if_neg (by omega), if_neg (by omega), if_pos (by omega)] at hbyte
      have hnat := congrArg UInt8.toNat hbyte
      rw [UInt8.toNat_add] at hnat
      have hone : (1 : UInt8).toNat = 1 := rfl
      omega
    refine ⟨hend, fun r hr => ?_⟩
    have hbyte := htiles (fun _ => 0) (dst + UInt64.ofNat (size / p * p + r))
    rw [h, hplace _ (by omega), if_neg (by omega), if_pos (by omega), if_pos (by omega), hmod,
      Nat.mul_add_mod_self_right, Nat.mod_eq_of_lt (Nat.lt_trans hr (Nat.mod_lt size hp))] at hbyte
    exact hbyte.symm
  · rintro ⟨hend, htail⟩ mem a
    rw [h mem a]
    by_cases hin : (a - dst).toNat < size / p * p
    · rw [if_pos hin, if_pos (by omega)]
    · rw [if_neg hin]
      by_cases hlt : (a - dst).toNat < size
      · obtain ⟨r, hr⟩ := Nat.exists_eq_add_of_le (Nat.le_of_not_lt hin)
        rw [if_pos (by omega), if_pos hlt, hr, hmod, Nat.mul_add_mod_self_right, ← htail r (by omega),
          Nat.mod_eq_of_lt (Nat.lt_trans (by omega) (Nat.mod_lt size hp))]
      · rw [if_neg (by omega), if_neg hlt]

/-- **The first word again and again, and columns of one width behind it.** -/
theorem columns_filled {first n patternSize : Nat} (hwidth : 0 < width)
    (hsize : patternSize = first + n * width) (hfirst : first ∣ patternSize)
    (hpos : 0 < patternSize) (hfit : size ≤ 2 ^ 64) :
    Filled pattern dst patternSize first size fun mem =>
      setColumns pattern dst patternSize (size / patternSize) (evenColumns first width n)
        (set (fun o => pattern (o % first)) dst (size / first * first) mem) := by
  intro mem a
  exact base_evenColumns hwidth hsize hfirst hpos (patterns_le_words hfirst)
    (Nat.le_trans (Nat.div_mul_le_self size first) hfit)

/-- **One word again and again**, when the pattern is that word. -/
theorem set_filled {patternSize : Nat} (hw : width ∣ patternSize) (hpos : 0 < patternSize)
    (hsame : ∀ r < patternSize, pattern r = pattern (r % width)) :
    Filled pattern dst patternSize width size
      (set (fun o => pattern (o % width)) dst (size / width * width)) := by
  intro mem a
  have hle : size / patternSize * patternSize ≤ size / width * width := patterns_le_words hw
  unfold set
  split
  next hin =>
    rw [hsame ((a - dst).toNat % patternSize) (Nat.mod_lt _ hpos), Nat.mod_mod_of_dvd _ hw]
    split
    next => rfl
    next => rfl
  next hout => rw [if_neg (by omega)]

end UnifiedRuntime.PatternFill
