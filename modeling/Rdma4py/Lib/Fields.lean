import Rdma4py.Lib.Bytes

/-!
# Records with fields at fixed offsets

A record starts as zeros and is patched. `Layout bytes n fields` says that the record has `n` bytes, that each field
stands at its offset, and that everything outside the fields is zero.
-/

namespace Rdma4py.Lib

/-- `struct.pack_into`, or the assignment of as many bytes to a slice. -/
def patch (bytes : List UInt8) (offset : Nat) (data : List UInt8) : List UInt8 :=
  bytes.take offset ++ data ++ bytes.drop (offset + data.length)

/-- The bytes from an offset on. -/
def slice (bytes : List UInt8) (offset width : Nat) : List UInt8 := (bytes.drop offset).take width

variable {bytes data : List UInt8} {offset i n : Nat}

theorem length_patch (h : offset + data.length ≤ bytes.length) : (patch bytes offset data).length = bytes.length := by
  simp only [patch, List.length_append, List.length_take, List.length_drop]
  omega

theorem getElem?_patch_inside (h : offset + data.length ≤ bytes.length) (hi : i < data.length) :
    (patch bytes offset data)[offset + i]? = data[i]? := by
  have htake : (bytes.take offset).length = offset := by simp only [List.length_take]; omega
  rw [patch, List.append_assoc, List.getElem?_append_right (by omega), htake, List.getElem?_append_left (by omega)]
  congr 1; omega

theorem getElem?_patch_outside (h : offset + data.length ≤ bytes.length)
    (hi : i < offset ∨ offset + data.length ≤ i) : (patch bytes offset data)[i]? = bytes[i]? := by
  have htake : (bytes.take offset).length = offset := by simp only [List.length_take]; omega
  rw [patch, List.append_assoc]
  rcases hi with hi | hi
  · rw [List.getElem?_append_left (by omega), List.getElem?_take_of_lt hi]
  · rw [List.getElem?_append_right (by omega), htake, List.getElem?_append_right (by omega), List.getElem?_drop]
    congr 1; omega

theorem getElem?_slice (hi : i < n) : (slice bytes offset n)[i]? = bytes[offset + i]? := by
  rw [slice, List.getElem?_take_of_lt hi, List.getElem?_drop]

theorem length_slice (h : offset + n ≤ bytes.length) : (slice bytes offset n).length = n := by
  simp only [slice, List.length_take, List.length_drop]
  omega

/-- A slice is determined by the bytes in its range. -/
theorem slice_congr {bytes' : List UInt8} (hl : bytes.length = bytes'.length)
    (h : ∀ i, offset ≤ i → i < offset + n → bytes[i]? = bytes'[i]?) : slice bytes offset n = slice bytes' offset n := by
  refine List.ext_getElem? fun i => ?_
  rcases Nat.lt_or_ge i n with hi | hi
  · rw [getElem?_slice hi, getElem?_slice hi]
    exact h _ (by omega) (by omega)
  · have hlen : (slice bytes offset n).length = (slice bytes' offset n).length := by
      simp only [slice, List.length_take, List.length_drop, hl]
    have hle : (slice bytes offset n).length ≤ i := by simp only [slice, List.length_take]; omega
    rw [List.getElem?_eq_none hle, List.getElem?_eq_none (hlen ▸ hle)]

theorem slice_patch_self (h : offset + data.length ≤ bytes.length) :
    slice (patch bytes offset data) offset data.length = data := by
  have hlen := length_patch h
  refine List.ext_getElem? fun i => ?_
  rcases Nat.lt_or_ge i data.length with hi | hi
  · rw [getElem?_slice hi, getElem?_patch_inside h hi]
  · rw [List.getElem?_eq_none (by rw [length_slice (by omega)]; exact hi), List.getElem?_eq_none hi]

/-- Patching one piece after the other. -/
theorem patch_append {data' : List UInt8} (h : offset + data.length + data'.length ≤ bytes.length) :
    patch bytes offset (data ++ data') = patch (patch bytes offset data) (offset + data.length) data' := by
  have h₁ : offset + data.length ≤ bytes.length := by omega
  have hlen := length_patch h₁
  refine List.ext_getElem? fun i => ?_
  rcases Nat.lt_or_ge i offset with hlt | hge
  · rw [getElem?_patch_outside (by simp only [List.length_append]; omega) (.inl hlt),
      getElem?_patch_outside (by omega) (.inl (by omega)), getElem?_patch_outside h₁ (.inl hlt)]
  obtain ⟨k, rfl⟩ := Nat.exists_eq_add_of_le hge
  rcases Nat.lt_or_ge k data.length with hk | hk
  · rw [getElem?_patch_inside (by simp only [List.length_append]; omega) (by simp only [List.length_append]; omega),
      getElem?_patch_outside (by omega) (.inl (by omega)), getElem?_patch_inside h₁ hk, List.getElem?_append_left hk]
  obtain ⟨j, rfl⟩ := Nat.exists_eq_add_of_le hk
  rw [← Nat.add_assoc]
  rcases Nat.lt_or_ge j data'.length with hj | hj
  · rw [getElem?_patch_inside (by omega) hj, Nat.add_assoc,
      getElem?_patch_inside (by simp only [List.length_append]; omega) (by simp only [List.length_append]; omega),
      List.getElem?_append_right (by omega)]
    congr 1; omega
  · rw [getElem?_patch_outside (by simp only [List.length_append]; omega)
        (.inr (by simp only [List.length_append]; omega)),
      getElem?_patch_outside (by omega) (.inr (by omega)), getElem?_patch_outside h₁ (.inr (by omega))]

/-- Patching the front of zeros. -/
theorem patch_replicate (n : Nat) (data : List UInt8) :
    patch (List.replicate n 0) 0 data = data ++ List.replicate (n - data.length) 0 := by
  simp [patch, List.drop_replicate]

/-! ## Fields -/

/-- Bytes at an offset. -/
structure Field where
  offset : Nat
  data : List UInt8

/-- The field of a number. -/
def Field.number (offset width value : Nat) : Field := ⟨offset, leBytes width value⟩

@[simp] theorem Field.number_offset (o w v : Nat) : (Field.number o w v).offset = o := rfl

@[simp] theorem Field.number_data (o w v : Nat) : (Field.number o w v).data = leBytes w v := rfl

/-- Numbers, each a width and a value, that follow one another from an offset on. -/
def Field.numbers : Nat → List (Nat × Nat) → List Field
  | _, [] => []
  | offset, x :: xs => .number offset x.1 x.2 :: numbers (offset + x.1) xs

/-- The bytes of such numbers. -/
def packed (items : List (Nat × Nat)) : List UInt8 := items.flatMap fun x => leBytes x.1 x.2

@[simp] theorem packed_nil : packed [] = [] := rfl

@[simp] theorem packed_cons (x : Nat × Nat) (xs : List (Nat × Nat)) : packed (x :: xs) = leBytes x.1 x.2 ++ packed xs :=
  rfl

/-- The positions of the field. -/
def Field.Covers (f : Field) (i : Nat) : Prop := f.offset ≤ i ∧ i < f.offset + f.data.length

/-- The fields have no position in common. -/
def Field.Apart (f g : Field) : Prop := f.offset + f.data.length ≤ g.offset ∨ g.offset + g.data.length ≤ f.offset

/-- The fields stand in a record of `n` bytes, and everything else is zero. -/
structure Layout (bytes : List UInt8) (n : Nat) (fields : List Field) : Prop where
  length : bytes.length = n
  field : ∀ f ∈ fields, f.offset + f.data.length ≤ n ∧ slice bytes f.offset f.data.length = f.data
  zero : ∀ i < n, (∀ f ∈ fields, ¬ f.Covers i) → bytes[i]? = some 0

namespace Layout

variable {f : Field} {fields : List Field}

theorem zeros (n : Nat) : Layout (List.replicate n 0) n [] :=
  ⟨List.length_replicate, by simp, fun i hi _ => by simp [hi]⟩

/-- The order of the fields does not matter, and a field of zeros need not be named. -/
theorem keep (h : Layout bytes n fields) (fields' : List Field) (hsub : ∀ f ∈ fields', f ∈ fields)
    (hz : ∀ f ∈ fields, f ∈ fields' ∨ ∀ b ∈ f.data, b = 0) : Layout bytes n fields' := by
  refine ⟨h.length, fun f hf => h.field f (hsub f hf), fun i hi hout => ?_⟩
  by_cases hc : ∃ f ∈ fields, f.Covers i
  · obtain ⟨f, hf, hlo, hhi⟩ := hc
    rcases hz f hf with hf' | hzero
    · exact absurd ⟨hlo, hhi⟩ (hout f hf')
    · obtain ⟨k, rfl⟩ := Nat.exists_eq_add_of_le hlo
      have hk : k < f.data.length := by omega
      rw [← getElem?_slice hk, (h.field f hf).2, List.getElem?_eq_getElem hk, hzero _ (List.getElem_mem hk)]
  · exact h.zero i hi fun f hf hcov => hc ⟨f, hf, hcov⟩

/-- A patch apart from the fields adds a field. -/
theorem add (h : Layout bytes n fields) (hn : f.offset + f.data.length ≤ n) (hd : ∀ g ∈ fields, f.Apart g) :
    Layout (patch bytes f.offset f.data) n (f :: fields) := by
  have hfit : f.offset + f.data.length ≤ bytes.length := h.length ▸ hn
  have hlen : (patch bytes f.offset f.data).length = bytes.length := length_patch hfit
  refine ⟨hlen.trans h.length, fun g hg => ?_, fun i hi hout => ?_⟩
  · rcases List.mem_cons.mp hg with rfl | hg
    · exact ⟨hn, slice_patch_self hfit⟩
    · refine ⟨(h.field g hg).1, .trans ?_ (h.field g hg).2⟩
      refine slice_congr hlen fun i hlo hhi => getElem?_patch_outside hfit ?_
      have : f.Apart g := hd g hg
      unfold Field.Apart at this; omega
  · have hf : ¬ f.Covers i := hout f (by simp)
    rw [getElem?_patch_outside hfit (by unfold Field.Covers at hf; omega)]
    exact h.zero i hi fun g hg => hout g (by simp [hg])

/-- A patch with numbers adds their fields. -/
theorem addNumbers (h : Layout bytes n fields) (offset : Nat) (items : List (Nat × Nat)) (hn : offset + (packed items).length ≤ n)
    (hd : ∀ g ∈ fields, Field.Apart ⟨offset, packed items⟩ g) :
    Layout (patch bytes offset (packed items)) n (Field.numbers offset items ++ fields) := by
  induction items generalizing bytes offset fields with
  | nil => simpa [packed, Field.numbers, patch] using h
  | cons x xs ih =>
      rw [packed_cons, List.length_append, length_leBytes] at hn
      have hx : Layout (patch bytes offset (leBytes x.1 x.2)) n (.number offset x.1 x.2 :: fields) := by
        refine h.add (f := .number offset x.1 x.2) (by simp; omega) fun g hg => ?_
        have := hd g hg
        simp only [Field.Apart, packed_cons, List.length_append, length_leBytes, Field.number_offset,
          Field.number_data] at this ⊢
        omega
      rw [packed_cons, patch_append (by rw [length_leBytes, h.length]; omega), length_leBytes]
      refine (ih hx _ (by omega) fun g hg => ?_).keep _ (fun f hf => ?_) fun f hf => .inl ?_
      rotate_left
      · simpa [Field.numbers, or_left_comm] using hf
      · simpa [Field.numbers, or_left_comm] using hf
      rcases List.mem_cons.mp hg with rfl | hg
      · simp [Field.Apart]
      · have := hd g hg
        simp only [Field.Apart, packed_cons, List.length_append, length_leBytes] at this ⊢
        omega

/-- A patch of a whole field replaces it. -/
theorem replace {old : Field} (h : Layout bytes n (old :: fields)) (ho : old.offset = f.offset)
    (hw : old.data.length = f.data.length) (hd : ∀ g ∈ fields, f.Apart g) :
    Layout (patch bytes f.offset f.data) n (f :: fields) := by
  have hn := (h.field old (by simp)).1
  have hfit : f.offset + f.data.length ≤ bytes.length := by rw [h.length]; omega
  have hlen : (patch bytes f.offset f.data).length = bytes.length := length_patch hfit
  refine ⟨hlen.trans h.length, fun g hg => ?_, fun i hi hout => ?_⟩
  · rcases List.mem_cons.mp hg with rfl | hg
    · exact ⟨by omega, slice_patch_self hfit⟩
    · refine ⟨(h.field g (by simp [hg])).1, .trans ?_ (h.field g (by simp [hg])).2⟩
      refine slice_congr hlen fun i hlo hhi => getElem?_patch_outside hfit ?_
      have : f.Apart g := hd g hg
      unfold Field.Apart at this; omega
  · have hf : ¬ f.Covers i := hout f (by simp)
    rw [getElem?_patch_outside hfit (by unfold Field.Covers at hf; omega)]
    refine h.zero i hi fun g hg => ?_
    rcases List.mem_cons.mp hg with rfl | hg
    · unfold Field.Covers at hf ⊢; omega
    · exact hout g (by simp [hg])

/-- A number reads back. -/
theorem number {o w v : Nat} (h : Layout bytes n fields) (hm : Field.number o w v ∈ fields) (hv : v < 256 ^ w) :
    leNat (slice bytes o w) = v := by
  have hs := (h.field _ hm).2
  rw [Field.number_offset, Field.number_data, length_leBytes] at hs
  rw [hs, leNat_leBytes_of_lt hv]

/-- The bytes after a field that ends before the next one are zero. -/
theorem takeWhile_field (h : Layout bytes n fields) (hm : f ∈ fields) (hz : 0 ∉ f.data)
    (hn : f.offset + f.data.length < n) (hd : ∀ g ∈ fields, ¬ g.Covers (f.offset + f.data.length)) :
    (bytes.drop f.offset).takeWhile (· ≠ 0) = f.data := by
  have hs := (h.field f hm).2
  have hnext := h.zero _ hn hd
  have hsplit : bytes.drop f.offset = f.data ++ bytes.drop (f.offset + f.data.length) := by
    rw [← List.drop_drop, ← hs, slice, List.length_take, List.length_drop, h.length,
      Nat.min_eq_left (by omega), List.take_append_drop]
  have hcons : ∃ rest, bytes.drop (f.offset + f.data.length) = 0 :: rest := by
    obtain ⟨hlt, hget⟩ := List.getElem?_eq_some_iff.mp hnext
    exact ⟨_, by rw [List.drop_eq_getElem_cons hlt, hget]⟩
  obtain ⟨rest, hrest⟩ := hcons
  rw [hsplit, hrest, List.takeWhile_append_of_pos (fun b hb => by simpa using fun h0 : b = 0 => hz (h0 ▸ hb))]
  simp

end Layout

/-! ## Reading back -/

/-- Reading the record at the offsets gives exactly these numbers, and the bytes in between are zero. Each number is given
by its offset, its width and its value. -/
structure Reads (bytes : List UInt8) (n : Nat) (fields : List (Nat × Nat × Int)) : Prop where
  length : bytes.length = n
  read : ∀ x ∈ fields, (leNat (slice bytes x.1 x.2.1) : Int) = x.2.2
  zero : ∀ i < n, (∀ x ∈ fields, i < x.1 ∨ x.1 + x.2.1 ≤ i) → bytes[i]? = some 0

/-- What was laid out reads back. -/
theorem Layout.reads {fields : List (Nat × Nat × Int)}
    (h : Layout bytes n (fields.map fun x => .number x.1 x.2.1 x.2.2.toNat))
    (hv : ∀ x ∈ fields, 0 ≤ x.2.2 ∧ x.2.2 < 256 ^ x.2.1) : Reads bytes n fields := by
  refine ⟨h.length, fun x hx => ?_, fun i hi hout => h.zero i hi fun f hf hc => ?_⟩
  · obtain ⟨h₀, h₁⟩ := hv x hx
    have hlt : x.2.2.toNat < 256 ^ x.2.1 := by
      have : ((256 ^ x.2.1 : Nat) : Int) = 256 ^ x.2.1 := by push_cast; rfl
      omega
    rw [h.number (List.mem_map.mpr ⟨x, hx, rfl⟩) hlt]
    omega
  · obtain ⟨x, hx, rfl⟩ := List.mem_map.mp hf
    have := hout x hx
    simp only [Field.Covers, Field.number_offset, Field.number_data, length_leBytes] at hc
    omega

end Rdma4py.Lib
