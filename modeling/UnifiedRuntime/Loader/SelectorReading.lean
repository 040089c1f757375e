import UnifiedRuntime.Loader.SelectorSpec

/-!
# What the code makes of a filter string

For a string of the documented grammar this file computes the `DeviceSpec` that
`readFilterString` builds (`readFilterString_eq`), the strings it refuses, and
where the resulting match agrees with the documented one.
-/

namespace UnifiedRuntime.Loader

open Str

/-- The identifier the code reads out of a part. -/
def Part.id : Part → Nat
  | .index n => n
  | _ => deviceIdTypeALL

/-- The hardware type the code reads out of a part. -/
def Part.hwType : Part → DeviceType
  | .hardware t => t.deviceType
  | _ => .all

/-- The filter the code works with; the second of three parts is lost. -/
def Filter.toSpec : Filter → DeviceSpec
  | .root r => ⟨.root, r.hwType, r.id, 0, 0, 0⟩
  | .sub r s => ⟨.sub, r.hwType, r.id, s.id, 0, 0⟩
  | .subSub r _ t => ⟨.subSub, r.hwType, r.id, deviceIdTypeALL, t.id, 0⟩

/-! ## One part -/

variable {f : Filter} {t : HardwareName} {a : Str} {hw : DeviceType}

theorem part_read_cases {part : Part} (h : Part.read a = some part) : (a = ['*'] ∧ part = .star) ∨
    (a ≠ [] ∧ a.all Char.isDigit = true ∧ part = .index (decimal a)) ∨
    (∃ t, part = .hardware t ∧ (tolower a = "cpu".toList ∧ t = .cpu ∨
      tolower a = "gpu".toList ∧ t = .gpu ∨ tolower a = "fpga".toList ∧ t = .fpga)) := by
  unfold Part.read at h
  split at h
  · next hs => exact .inl ⟨hs, (Option.some.inj h).symm⟩
  split at h
  · next hd => exact .inr (.inl ⟨hd.1, hd.2, (Option.some.inj h).symm⟩)
  refine .inr (.inr ?_)
  split at h
  · next hc => exact ⟨.cpu, (Option.some.inj h).symm, .inl ⟨hc, rfl⟩⟩
  split at h
  · next hc => exact ⟨.gpu, (Option.some.inj h).symm, .inr (.inl ⟨hc, rfl⟩)⟩
  split at h
  · next hc => exact ⟨.fpga, (Option.some.inj h).symm, .inr (.inr ⟨hc, rfl⟩)⟩
  · exact absurd h (by simp)

/-- What a part's text is made of, as far as the code looks. -/
structure PartText (a : Str) (part : Part) : Prop where
  hw : getRootHardwareType a = part.hwType
  star : part = .star → a = ['*']
  noStar : part ≠ .star → '*' ∉ a
  index : ∀ n, part = .index n → a.all Char.isDigit = true ∧ a ≠ [] ∧ decimal a = n
  noIndex : (∀ n, part ≠ .index n) → a.all Char.isDigit = false
  ne : a ≠ []

theorem partText_of_hardware {w : Str} (h : tolower a = w)
    (hw : getRootHardwareType a = t.deviceType) (hne : w ≠ []) (hstar : '*' ∉ w)
    (hdig : w.any Char.isDigit = false) : PartText a (.hardware t) where
  hw := hw
  star := fun e => by cases e
  noStar := fun _ hmem => hstar (toLower_mem_of_tolower_eq h hmem)
  index := fun n e => by cases e
  noIndex := fun _ => by
    cases a with
    | nil => exact absurd h.symm hne
    | cons d a =>
      rw [List.all_eq_false]
      refine ⟨d, List.mem_cons_self .., fun hd => ?_⟩
      have hm := toLower_mem_of_tolower_eq h (List.mem_cons_self (a := d) (l := a))
      rw [toLower_of_isDigit hd] at hm
      rw [Bool.eq_false_iff.mpr (List.any_eq_false.mp hdig d hm)] at hd
      exact absurd hd (by simp)
  ne := fun e => by
    subst e
    exact hne h.symm

theorem getRootHardwareType_digits (hne : a ≠ []) (hd : a.all Char.isDigit = true) :
    getRootHardwareType a = .all := by
  have hno : ∀ w : Str, w.any Char.isDigit = false → tolower a ≠ w := by
    intro w hw he
    cases a with
    | nil => exact hne rfl
    | cons d a =>
      have hdd : d.isDigit = true := List.all_eq_true.mp hd d (List.mem_cons_self ..)
      have hm := toLower_mem_of_tolower_eq he (List.mem_cons_self (a := d) (l := a))
      rw [toLower_of_isDigit hdd] at hm
      rw [Bool.eq_false_iff.mpr (List.any_eq_false.mp hw d hm)] at hdd
      exact absurd hdd (by simp)
  unfold getRootHardwareType
  rw [if_neg (hno _ (by decide)), if_neg (hno _ (by decide)), if_neg (hno _ (by decide))]

theorem part_read_text {part : Part} (h : Part.read a = some part) : PartText a part := by
  rcases part_read_cases h with ⟨rfl, rfl⟩ | ⟨hne, hd, rfl⟩ | ⟨t, rfl, ht⟩
  · exact ⟨by decide, fun _ => rfl, fun e => absurd rfl e, fun n e => (by cases e),
      fun _ => by decide, by simp⟩
  · refine ⟨getRootHardwareType_digits hne hd, fun e => (by cases e), fun _ hm => ?_,
      fun n e => ⟨hd, hne, by injection e⟩, fun e => absurd rfl (e _), hne⟩
    have := List.all_eq_true.mp hd '*' hm
    exact absurd this (by decide)
  · rcases ht with ⟨ht, rfl⟩ | ⟨ht, rfl⟩ | ⟨ht, rfl⟩
    all_goals
      exact partText_of_hardware ht (by unfold getRootHardwareType; rw [ht]; decide)
        (by decide) (by decide) (by decide)

/-- `getDeviceId` reads a part as its identifier, or overflows. -/
theorem getDeviceId_part {part : Part} (h : PartText a part) :
    (part.Overflows → getDeviceId a = .error .outOfRange) ∧
    (¬ part.Overflows → getDeviceId a = .ok part.id) := by
  unfold getDeviceId
  cases part with
  | index n =>
    obtain ⟨hd, hne, hn⟩ := h.index n rfl
    rw [if_pos hd]
    unfold stoul
    rw [if_neg (by simpa using hne), hn]
    constructor
    · intro ho
      rw [if_neg (Nat.not_lt.mpr ho)]
    · intro ho
      rw [if_pos (Nat.not_le.mp ho)]
      rfl
  | star =>
    rw [if_neg (by rw [h.noIndex (by simp)]; simp)]
    exact ⟨fun ho => ho.elim, fun _ => rfl⟩
  | hardware t =>
    rw [if_neg (by rw [h.noIndex (by simp)]; simp)]
    exact ⟨fun ho => ho.elim, fun _ => rfl⟩

/-- A piece cut with a dot at its end is no number. -/
theorem getDeviceId_dot (a : Str) : getDeviceId (a ++ ['.']) = .ok deviceIdTypeALL := by
  unfold getDeviceId
  simp

/-! ## The `"*."` check -/

theorem badWildcard_cons {c : Char} (hc : c ≠ '*') (s : Str) :
    badWildcard (c :: s) = badWildcard s := by
  cases s with
  | nil => simp [badWildcard]
  | cons d s =>
    rw [badWildcard]
    intro s' h
    exact absurd h hc

theorem badWildcard_append (ha : '*' ∉ a) (s : Str) : badWildcard (a ++ s) = badWildcard s := by
  induction a with
  | nil => rfl
  | cons c a ih =>
    rw [List.cons_append, badWildcard_cons (fun e => ha (e ▸ List.mem_cons_self ..)),
      ih (fun h => ha (List.mem_cons_of_mem _ h))]

theorem badWildcard_part {part : Part} (h : PartText a part) : badWildcard a = false := by
  by_cases hp : part = .star
  · rw [h.star hp]
    rfl
  · have := badWildcard_append (h.noStar hp) []
    rw [List.append_nil] at this
    rw [this]
    rfl

/-- One dot: a star above it must be followed by a star. -/
theorem badWildcard_dot {a b : Str} (rest : Str) {r s : Part} (ha : PartText a r)
    (hb : PartText b s) :
    badWildcard (a ++ '.' :: (b ++ rest)) = true ↔
      r.BadBelow s ∨ badWildcard (b ++ rest) = true := by
  have hhead : (b ++ rest).head? = some '*' ↔ s = .star := by
    constructor
    · intro h
      by_contra hs
      cases b with
      | nil => exact hb.ne rfl
      | cons c b =>
        rw [List.cons_append, List.head?_cons, Option.some.injEq] at h
        exact hb.noStar hs (h ▸ List.mem_cons_self ..)
    · intro hs
      rw [hb.star hs]
      rfl
  by_cases hr : r = .star
  · rw [ha.star hr, hr, List.cons_append, List.nil_append, badWildcard]
    by_cases hs : s = .star
    · rw [if_pos (hhead.mpr hs)]
      simp [Part.BadBelow, hs]
    · rw [if_neg (fun h => hs (hhead.mp h))]
      simp [Part.BadBelow, hs]
  · have hbad : ¬ r.BadBelow s := by
      cases r with
      | star => exact absurd rfl hr
      | index n => exact id
      | hardware t => exact id
    rw [badWildcard_append (ha.noStar hr), badWildcard_cons (by decide)]
    simp [hbad]

/-! ## A whole filter string -/

/-- The text of a filter: its parts around the dots. -/
inductive FilterText : Str → Filter → Prop where
  | root {a : Str} {r : Part} : PartText a r → '.' ∉ a → FilterText a (.root r)
  | sub {a b : Str} {r s : Part} : PartText a r → PartText b s → '.' ∉ a → '.' ∉ b →
      FilterText (a ++ '.' :: b) (.sub r s)
  | subSub {a b c : Str} {r s t : Part} : PartText a r → PartText b s → PartText c t →
      '.' ∉ a → '.' ∉ b → '.' ∉ c → FilterText (a ++ '.' :: (b ++ '.' :: c)) (.subSub r s t)

theorem filter_read_text {s : Str} (h : Filter.read s = some f) : FilterText s f := by
  have hs : ['.'].intercalate (s.splitOn '.') = s := List.intercalate_splitOn '.'
  have hdot : ∀ a ∈ s.splitOn '.', '.' ∉ a := fun a ha => not_mem_of_mem_splitOn ha
  unfold Filter.read at h
  split at h
  · next a hsp =>
    rw [hsp] at hs hdot
    obtain ⟨r, hr, rfl⟩ := Option.map_eq_some_iff.mp h
    subst hs
    simp only [List.intercalate_singleton] at *
    exact .root (part_read_text hr) (hdot a (by simp))
  · next a b hsp =>
    rw [hsp] at hs hdot
    obtain ⟨r, hr, h⟩ := Option.bind_eq_some_iff.mp h
    obtain ⟨s', hs', rfl⟩ := Option.map_eq_some_iff.mp h
    rw [← hs]
    simpa [List.intercalate] using
      FilterText.sub (part_read_text hr) (part_read_text hs') (hdot a (by simp)) (hdot b (by simp))
  · next a b c hsp =>
    rw [hsp] at hs hdot
    obtain ⟨r, hr, h⟩ := Option.bind_eq_some_iff.mp h
    obtain ⟨s', hs', h⟩ := Option.bind_eq_some_iff.mp h
    obtain ⟨t, ht, rfl⟩ := Option.map_eq_some_iff.mp h
    rw [← hs]
    simpa [List.intercalate] using
      FilterText.subSub (part_read_text hr) (part_read_text hs') (part_read_text ht)
        (hdot a (by simp)) (hdot b (by simp)) (hdot c (by simp))
  · exact absurd h (by simp)

/-- The pieces `find` and `substr` cut out of a one-part filter. -/
theorem readFilterString_root (ha : '.' ∉ a) : readFilterString a = (getDeviceId a).map fun i =>
      ⟨.root, getRootHardwareType a, i, 0, 0, 0⟩ := by
  have h1 : find a '.' 0 = none := by
    simpa using find_none [] ha
  unfold readFilterString
  rw [h1]
  cases getDeviceId a <;> rfl

theorem readFilterString_sub {a b : Str} (ha : '.' ∉ a) (hb : '.' ∉ b) :
    readFilterString (a ++ '.' :: b) = (getDeviceId a).bind fun i => (getDeviceId b).map fun j =>
      ⟨.sub, getRootHardwareType a, i, j, 0, 0⟩ := by
  have h1 : find (a ++ '.' :: b) '.' 0 = some a.length := by
    simpa using find_delim [] b ha
  have h2 : find (a ++ '.' :: b) '.' (a.length + 1) = none := by
    simpa using find_none (a ++ ['.']) hb
  have hfst : substr (a ++ '.' :: b) 0 (some a.length) = a := by simp [substr]
  have hsnd : substr (a ++ '.' :: b) (a.length + 1) none = b := by simp [substr]
  unfold readFilterString
  rw [h1]
  simp only [h2, hfst, Option.map_none, hsnd]
  cases getDeviceId a with
  | error e => rfl
  | ok i => cases getDeviceId b <;> rfl

/-- Of a three-part filter the second piece keeps the dot behind it. -/
theorem readFilterString_subSub {a b c : Str} (ha : '.' ∉ a) (hb : '.' ∉ b) :
    readFilterString (a ++ '.' :: (b ++ '.' :: c)) =
      (getDeviceId a).bind fun i => (getDeviceId c).map fun k =>
        ⟨.subSub, getRootHardwareType a, i, deviceIdTypeALL, k, 0⟩ := by
  have h1 : find (a ++ '.' :: (b ++ '.' :: c)) '.' 0 = some a.length := by
    simpa using find_delim [] (b ++ '.' :: c) ha
  have h2 : find (a ++ '.' :: (b ++ '.' :: c)) '.' (a.length + 1)
      = some (a.length + 1 + b.length) := by
    simpa using find_delim (a ++ ['.']) c hb
  have hfst : substr (a ++ '.' :: (b ++ '.' :: c)) 0 (some a.length) = a := by simp [substr]
  have hsnd : substr (a ++ '.' :: (b ++ '.' :: c)) (a.length + 1)
      (some (a.length + 1 + b.length - a.length)) = b ++ ['.'] := by
    have hlen : a.length + 1 + b.length - a.length = b.length + 1 := by omega
    have hdrop : (a ++ '.' :: (b ++ '.' :: c)).drop (a.length + 1) = b ++ '.' :: c := by simp
    have hsplit : b ++ '.' :: c = (b ++ ['.']) ++ c := by simp
    rw [substr, hlen, hdrop, hsplit]
    exact List.take_left' (by simp)
  have hthd : substr (a ++ '.' :: (b ++ '.' :: c)) (a.length + 1 + b.length + 1) none = c := by
    have hsplit : a ++ '.' :: (b ++ '.' :: c) = (a ++ '.' :: (b ++ ['.'])) ++ c := by simp
    have hlen : a.length + 1 + b.length + 1 = (a ++ '.' :: (b ++ ['.'])).length := by
      simp
      omega
    rw [substr, hsplit, hlen, List.drop_left]
  unfold readFilterString
  rw [h1]
  simp only [h2, hfst, Option.map_some, hsnd, hthd, getDeviceId_dot]
  cases getDeviceId a with
  | error e => rfl
  | ok i => cases getDeviceId c <;> rfl

/-- A filter that is not rejected passes the checks and is read as `toSpec`. -/
theorem readFilterString_ok {s : Str} (h : FilterText s f) (hr : ¬ f.Rejected) :
    badWildcard s = false ∧ readFilterString s = .ok f.toSpec := by
  cases h with
  | root ha hda =>
    refine ⟨badWildcard_part ha, ?_⟩
    rw [readFilterString_root hda, (getDeviceId_part ha).2 hr, ha.hw]
    rfl
  | @sub a b r s ha hb hda hdb =>
    simp only [Filter.Rejected, not_or] at hr
    refine ⟨?_, ?_⟩
    · have hbw := badWildcard_dot [] ha hb
      rw [List.append_nil, badWildcard_part hb] at hbw
      simpa [hr.1] using hbw
    · rw [readFilterString_sub hda hdb, (getDeviceId_part ha).2 hr.2.1,
        (getDeviceId_part hb).2 hr.2.2, ha.hw]
      rfl
  | @subSub a b c r s t ha hb hc hda hdb hdc =>
    simp only [Filter.Rejected, not_or] at hr
    refine ⟨?_, ?_⟩
    · have hbw := badWildcard_dot ('.' :: c) ha hb
      have hbw' := badWildcard_dot [] hb hc
      rw [List.append_nil, badWildcard_part hc] at hbw'
      simpa [hr.1, hr.2.1, hbw'] using hbw
    · rw [readFilterString_subSub hda hdb, (getDeviceId_part ha).2 hr.2.2.1,
        (getDeviceId_part hc).2 hr.2.2.2, ha.hw]
      rfl

/-- A rejected filter fails the `"*."` check or the number conversion. -/
theorem readFilterString_rejected {s : Str} (h : FilterText s f) (hr : f.Rejected) :
    badWildcard s = true ∨ readFilterString s = .error .outOfRange := by
  cases h with
  | root ha hda =>
    refine .inr ?_
    rw [readFilterString_root hda, (getDeviceId_part ha).1 hr]
    rfl
  | @sub a b r s ha hb hda hdb =>
    have hbw := badWildcard_dot [] ha hb
    rw [List.append_nil] at hbw
    by_cases hbad : r.BadBelow s
    · exact .inl (hbw.mpr (.inl hbad))
    refine .inr ?_
    rw [readFilterString_sub hda hdb]
    by_cases ho : r.Overflows
    · rw [(getDeviceId_part ha).1 ho]
      rfl
    · have hos : s.Overflows := by
        simpa [Filter.Rejected, hbad, ho] using hr
      rw [(getDeviceId_part ha).2 ho, (getDeviceId_part hb).1 hos]
      rfl
  | @subSub a b c r s t ha hb hc hda hdb hdc =>
    have hbw := badWildcard_dot ('.' :: c) ha hb
    have hbw' := badWildcard_dot [] hb hc
    rw [List.append_nil] at hbw'
    by_cases hbad : r.BadBelow s
    · exact .inl (hbw.mpr (.inl hbad))
    by_cases hbad' : s.BadBelow t
    · exact .inl (hbw.mpr (.inr (hbw'.mpr (.inl hbad'))))
    refine .inr ?_
    rw [readFilterString_subSub hda hdb]
    by_cases ho : r.Overflows
    · rw [(getDeviceId_part ha).1 ho]
      rfl
    · have hot : t.Overflows := by
        simpa [Filter.Rejected, hbad, hbad', ho] using hr
      rw [(getDeviceId_part ha).2 ho, (getDeviceId_part hc).1 hot]
      rfl

theorem filterText_ne_nil {s : Str} (h : FilterText s f) : s ≠ [] := by
  cases h with
  | root ha _ => exact ha.ne
  | sub _ _ _ _ => simp
  | subSub _ _ _ _ _ _ => simp

theorem filterText_dots {s : Str} (h : FilterText s f) : ¬ 2 < s.count '.' := by
  cases h with
  | root _ hda => simp [List.count_eq_zero.mpr hda]
  | sub _ _ hda hdb =>
    simp [List.count_eq_zero.mpr hda, List.count_eq_zero.mpr hdb]
  | subSub _ _ _ hda hdb hdc =>
    simp [List.count_eq_zero.mpr hda, List.count_eq_zero.mpr hdb,
      List.count_eq_zero.mpr hdc]

/-! ## Where the match is the documented one -/

/-- The filter's match, on the vector of its own depth. -/
def filterAt (filter device : DeviceSpec) : Bool :=
  device.level == filter.level && applyFilter filter device

theorem part_matches_star {i : Nat} : Part.matches hw i .star = true := rfl

@[simp] theorem part_matches_index {i n : Nat} : Part.matches hw i (.index n) = true ↔ n = i := by
  simp [Part.matches]

@[simp] theorem part_matches_hardware {i : Nat} :
    Part.matches hw i (.hardware t) = true ↔ t.deviceType = hw := by
  simp [Part.matches]

@[simp] theorem hardwareName_ne_all (t : HardwareName) : t.deviceType ≠ .all := by
  cases t <;> decide

theorem under_match {s : Part} {i : Nat} (h : s.Under t)
    (ht : t.deviceType = hw) : s.matches hw i = true := by
  cases s with
  | star => rfl
  | index n => exact h.elim
  | hardware t' =>
    rw [part_matches_hardware, show t' = t from h]
    exact ht

/-- A first part that is no number decides the match by the hardware type. -/
theorem applyFilter_all {f d : DeviceSpec} (h : f.rootId = deviceIdTypeALL) :
    applyFilter f d = true ↔ f.hwType = d.hwType ∨ f.hwType = .all := by
  simp [applyFilter, h]

theorem applyFilter_root {f d : DeviceSpec} (hl : f.level = .root)
    (h : f.rootId ≠ deviceIdTypeALL) : applyFilter f d = true ↔ f.rootId = d.rootId := by
  simp [applyFilter, h, hl]

/-- With a number first and no number second, every device below matches. -/
theorem applyFilter_subAll {f d : DeviceSpec} (h : f.rootId ≠ deviceIdTypeALL)
    (hs : f.subId = deviceIdTypeALL) :
    applyFilter f d = true ↔ f.rootId = d.rootId := by
  simp [applyFilter, h, hs]

theorem applyFilter_sub {f d : DeviceSpec} (hl : f.level = .sub)
    (h : f.rootId ≠ deviceIdTypeALL) (hs : f.subId ≠ deviceIdTypeALL) :
    applyFilter f d = true ↔ f.rootId = d.rootId ∧ f.subId = d.subId := by
  simp [applyFilter, h, hl, hs]

theorem filterAt_iff {f d : DeviceSpec} :
    filterAt f d = true ↔ d.level = f.level ∧ applyFilter f d = true := by
  simp [filterAt]

theorem filter_matches_sub {d : DeviceSpec} {r s : Part} :
    Filter.matches d (.sub r s) = true ↔ d.level = .sub ∧
      r.matches d.hwType d.rootId = true ∧ s.matches d.hwType d.subId = true := by
  simp [Filter.matches, and_assoc]

theorem filter_matches_subSub {d : DeviceSpec} {r s t : Part} :
    Filter.matches d (.subSub r s t) = true ↔ d.level = .subSub ∧
      r.matches d.hwType d.rootId = true ∧ s.matches d.hwType d.subId = true ∧
        t.matches d.hwType d.subsubId = true := by
  simp [Filter.matches, and_assoc]

/-- On a faithful filter the code's match is the documented match. -/
theorem filterAt_faithful (h : f.Faithful) (d : DeviceSpec) :
    filterAt f.toSpec d = f.matches d := by
  rw [Bool.eq_iff_iff, filterAt_iff]
  cases f with
  | root r =>
    have hm : Filter.matches d (.root r) = true ↔
        d.level = .root ∧ r.matches d.hwType d.rootId = true := by simp [Filter.matches]
    rw [hm]
    refine and_congr_right fun _ => ?_
    cases r with
    | index n =>
      have hn : (Filter.root (.index n)).toSpec.rootId ≠ deviceIdTypeALL := Nat.ne_of_lt h
      rw [applyFilter_root rfl hn, part_matches_index]
      rfl
    | star => simp [applyFilter_all, part_matches_star, Filter.toSpec, Part.id, Part.hwType]
    | hardware t => simp [applyFilter_all, Filter.toSpec, Part.id, Part.hwType]
  | sub r s =>
    rw [filter_matches_sub]
    refine and_congr_right fun _ => ?_
    cases r with
    | index n =>
      obtain ⟨hn, hs, hhw⟩ := h
      cases s with
      | hardware t => exact absurd rfl (hhw t)
      | star =>
        rw [applyFilter_subAll (Nat.ne_of_lt hn) rfl]
        simp [part_matches_star, Filter.toSpec, Part.id]
      | index m =>
        have hn' : (Filter.sub (.index n) (.index m)).toSpec.rootId ≠ deviceIdTypeALL :=
          Nat.ne_of_lt hn
        have hm' : (Filter.sub (.index n) (.index m)).toSpec.subId ≠ deviceIdTypeALL :=
          Nat.ne_of_lt hs
        rw [applyFilter_sub rfl hn' hm']
        simp [Filter.toSpec, Part.id]
    | star =>
      rw [show s = .star from h, applyFilter_all rfl]
      simp [part_matches_star, Filter.toSpec, Part.hwType]
    | hardware t =>
      rw [applyFilter_all rfl, part_matches_hardware]
      simp only [Filter.toSpec, Part.hwType, hardwareName_ne_all, or_false]
      exact ⟨fun ht => ⟨ht, under_match h ht⟩, fun ht => ht.1⟩
  | subSub r s t =>
    rw [filter_matches_subSub]
    refine and_congr_right fun _ => ?_
    cases r with
    | index n =>
      obtain ⟨hn, rfl, rfl⟩ := h
      rw [applyFilter_subAll (Nat.ne_of_lt hn) rfl]
      simp [part_matches_star, Filter.toSpec, Part.id]
    | star =>
      obtain ⟨rfl, rfl⟩ := h
      rw [applyFilter_all rfl]
      simp [part_matches_star, Filter.toSpec, Part.hwType]
    | hardware h' =>
      rw [applyFilter_all rfl, part_matches_hardware]
      simp only [Filter.toSpec, Part.hwType, hardwareName_ne_all, or_false]
      exact ⟨fun ht => ⟨ht, under_match h.1 ht, under_match h.2 ht⟩, fun ht => ht.1⟩

/-! ## Where it is not -/

/-- The device at a position, of the given depth. -/
def deviceAt (l : DevicePartLevel) (hw : DeviceType) (i j k : Nat) (h : DeviceHandle) :
    DeviceSpec :=
  match l with
  | .root => ⟨.root, hw, i, deviceIdTypeALL, deviceIdTypeALL, h⟩
  | .sub => ⟨.sub, hw, i, j, deviceIdTypeALL, h⟩
  | .subSub => ⟨.subSub, hw, i, j, k, h⟩

/-- A device the code takes for a match of `f` and the documentation does not. -/
def Filter.Mismatch (f : Filter) (hw : DeviceType) (i j k : Nat) : Prop :=
  ∀ h, applyFilter f.toSpec (deviceAt f.level hw i j k h) = true ∧
    f.matches (deviceAt f.level hw i j k h) = false

/-- Some hardware type that `t` does not name. -/
def HardwareName.other : HardwareName → DeviceType
  | .cpu => .gpu
  | .gpu => .cpu
  | .fpga => .cpu

@[simp] theorem other_ne (t : HardwareName) : t.deviceType ≠ t.other := by
  cases t <;> decide

theorem part_mismatch_of_not_under {s : Part} (h : ¬ s.Under t) :
    ∃ j, s.matches t.deviceType j = false := by
  cases s with
  | star => exact absurd trivial h
  | index m => exact ⟨m + 1, by simp [Part.matches]⟩
  | hardware t' =>
    have hne : t'.deviceType ≠ t.deviceType := by
      intro he
      refine h ?_
      cases t <;> cases t' <;> first | rfl | exact absurd he (by decide)
    exact ⟨0, by simpa [Part.matches] using hne⟩

theorem part_mismatch_of_ne_star {s : Part} (h : s ≠ .star) :
    ∃ hw j, s.matches hw j = false := by
  cases s with
  | star => exact absurd rfl h
  | index m => exact ⟨.gpu, m + 1, by simp [Part.matches]⟩
  | hardware t => exact ⟨t.other, 0, by simp [Part.matches]⟩

/-- Where the code matches by the hardware type alone, a part below that does
not match the device is misread. -/
theorem mismatch_of_hwType {j k : Nat}
    (hid : f.toSpec.rootId = deviceIdTypeALL) (hhw : f.toSpec.hwType = t.deviceType)
    (hdoc : ∀ h, f.matches (deviceAt f.level t.deviceType 0 j k h) = false) :
    f.Mismatch t.deviceType 0 j k := by
  intro h
  have hdev : (deviceAt f.level t.deviceType 0 j k h).hwType = t.deviceType := by
    cases f.level <;> rfl
  exact ⟨(applyFilter_all hid).mpr (.inl (hhw.trans hdev.symm)), hdoc h⟩

/-- A number in the first part that is the mark for "all" matches the first
root, which it does not name. -/
theorem mismatch_of_mark (hid : f.toSpec.rootId = deviceIdTypeALL) (hhw : f.toSpec.hwType = .all)
    (hdoc : ∀ h, f.matches (deviceAt f.level .gpu 0 0 0 h) = false) :
    f.Mismatch .gpu 0 0 0 :=
  fun h => ⟨(applyFilter_all hid).mpr (.inr hhw), hdoc h⟩

/-- **Every filter that is neither faithful nor rejected misreads some device.** -/
theorem exists_mismatch (hf : ¬ f.Faithful) (hr : ¬ f.Rejected) :
    ∃ hw i j k, f.Mismatch hw i j k := by
  -- an index that is not small and does not overflow is the mark itself
  have hmark : ∀ n : Nat, ¬ n < deviceIdTypeALL → ¬ 2 ^ 64 ≤ n → n = deviceIdTypeALL := by
    intro n h1 h2
    unfold deviceIdTypeALL at *
    omega
  have hzero : Part.matches .gpu 0 (.index deviceIdTypeALL) = false := by decide
  cases f with
  | root r =>
    cases r with
    | star => exact absurd trivial hf
    | hardware t => exact absurd trivial hf
    | index n =>
      obtain rfl := hmark n hf hr
      exact ⟨.gpu, 0, 0, 0, mismatch_of_mark rfl rfl (by
        simp [Filter.matches, Filter.level, deviceAt, hzero])⟩
  | sub r s =>
    simp only [Filter.Rejected, not_or] at hr
    cases r with
    | star => exact absurd (not_not.mp hr.1) hf
    | hardware t =>
      obtain ⟨j, hj⟩ := part_mismatch_of_not_under hf
      exact ⟨_, 0, j, 0, mismatch_of_hwType rfl rfl (by
        simp [Filter.matches, Filter.level, deviceAt, hj])⟩
    | index n =>
      by_cases hn : n < deviceIdTypeALL
      · have hne : (Filter.sub (.index n) s).toSpec.rootId ≠ deviceIdTypeALL := Nat.ne_of_lt hn
        -- the second part is the mark, or a hardware type read as the mark
        have hs : s ≠ .star ∧ s.id = deviceIdTypeALL := by
          cases s with
          | star => exact absurd ⟨hn, trivial, by simp⟩ hf
          | hardware t => exact ⟨by simp, rfl⟩
          | index m => exact ⟨by simp, hmark m (fun hm => hf ⟨hn, hm, by simp⟩) hr.2.2⟩
        obtain ⟨hw, j, hj⟩ := part_mismatch_of_ne_star hs.1
        exact ⟨hw, n, j, 0, fun h =>
          ⟨(applyFilter_subAll hne hs.2).mpr rfl,
          by simp [Filter.matches, Filter.level, deviceAt, hj]⟩⟩
      · obtain rfl := hmark n hn hr.2.1
        exact ⟨.gpu, 0, 0, 0, mismatch_of_mark rfl rfl (by
          simp [Filter.matches, Filter.level, deviceAt, hzero])⟩
  | subSub r s t =>
    simp only [Filter.Rejected, not_or] at hr
    cases r with
    | star =>
      have hs : s = .star := not_not.mp hr.1
      subst hs
      exact absurd ⟨rfl, not_not.mp hr.2.1⟩ hf
    | hardware h =>
      by_cases hs : s.Under h
      · obtain ⟨k, hk⟩ := part_mismatch_of_not_under (fun ht => hf ⟨hs, ht⟩)
        exact ⟨_, 0, 0, k, mismatch_of_hwType rfl rfl (by
          simp [Filter.matches, Filter.level, deviceAt, hk])⟩
      · obtain ⟨j, hj⟩ := part_mismatch_of_not_under hs
        exact ⟨_, 0, j, 0, mismatch_of_hwType rfl rfl (by
          simp [Filter.matches, Filter.level, deviceAt, hj])⟩
    | index n =>
      by_cases hn : n < deviceIdTypeALL
      · have hne : (Filter.subSub (.index n) s t).toSpec.rootId ≠ deviceIdTypeALL :=
          Nat.ne_of_lt hn
        have hs : s ≠ .star := by
          rintro rfl
          exact hf ⟨hn, rfl, not_not.mp hr.2.1⟩
        obtain ⟨hw, j, hj⟩ := part_mismatch_of_ne_star hs
        exact ⟨hw, n, j, 0, fun h =>
          ⟨(applyFilter_subAll hne rfl).mpr rfl,
          by simp [Filter.matches, Filter.level, deviceAt, hj]⟩⟩
      · obtain rfl := hmark n hn hr.2.2.1
        exact ⟨.gpu, 0, 0, 0, mismatch_of_mark rfl rfl (by
          simp [Filter.matches, Filter.level, deviceAt, hzero])⟩

end UnifiedRuntime.Loader
