import WebCall.Text.Utf8

/-!
# Reading UTF-8 back

A character of ASCII is one byte, whatever stands around it, and that byte is read as the character
wherever a character can begin. Every text is read back from its bytes.

## Main definitions

* `Utf8.ascii`: the bytes of characters of ASCII.
* `Utf8.IsAscii`: characters that are one byte.
* `Utf8.decode?_encode`: the reading of what was written.
-/
namespace WebCall.Utf8

/-- A text of ASCII. -/
def IsAscii (cs : List Char) : Prop := ∀ c ∈ cs, c.toNat < 0x80

instance (cs : List Char) : Decidable (IsAscii cs) :=
  decidable_of_iff ((cs.all fun c => decide (c.toNat < 0x80)) = true) (by simp [IsAscii])

/-- The bytes of a text of ASCII. -/
def ascii (cs : List Char) : Bytes := cs.map fun c => UInt8.ofNat c.toNat

@[simp] theorem ascii_nil : ascii [] = [] := rfl

@[simp] theorem ascii_cons (c : Char) (cs : List Char) :
    ascii (c :: cs) = UInt8.ofNat c.toNat :: ascii cs := rfl

theorem toNat_ofNat_byte {n : Nat} (h : n < 256) : (UInt8.ofNat n).toNat = n := by
  rw [UInt8.toNat_ofNat']
  omega

theorem toNat_ofNat_of_lt {c : Char} (h : c.toNat < 0x80) : (UInt8.ofNat c.toNat).toNat = c.toNat :=
  toNat_ofNat_byte (by omega)

/-- A byte of ASCII is read as its character. -/
theorem parts_cons_of_lt {c : Char} (h : c.toNat < 0x80) (rest : Bytes) :
    parts (UInt8.ofNat c.toNat :: rest) = some c :: parts rest := by
  have step : next (UInt8.ofNat c.toNat) rest = (some c, rest) := by
    rw [next, toNat_ofNat_of_lt h]
    simp [h]
  rw [parts, step]

/-- A byte of ASCII ends every character that is still open in front of it. -/
theorem more_append_cons {c : Char} (h : c.toNat < 0x80) {lo : UInt8} (continuing : 0x80 ≤ lo)
    (count bits : Nat) (hi : UInt8) (before after : Bytes) :
    more count bits lo hi (before ++ UInt8.ofNat c.toNat :: after) =
      ((more count bits lo hi before).1,
        (more count bits lo hi before).2 ++ UInt8.ofNat c.toNat :: after) := by
  induction before generalizing count bits lo hi with
  | nil =>
    cases count with
    | zero => rfl
    | succ count =>
      have below : ¬ (lo ≤ UInt8.ofNat c.toNat) := by
        rw [UInt8.le_iff_toNat_le, toNat_ofNat_of_lt h]
        have low : 0x80 ≤ lo.toNat := continuing
        omega
      simp [more, below]
  | cons b before ih =>
    cases count with
    | zero => rfl
    | succ count =>
      rw [List.cons_append, more, more]
      split
      · exact ih (by decide) _ _ _
      · rfl

theorem next_append_cons {c : Char} (h : c.toNat < 0x80) (b : UInt8) (before after : Bytes) :
    next b (before ++ UInt8.ofNat c.toNat :: after) =
      ((next b before).1, (next b before).2 ++ UInt8.ofNat c.toNat :: after) := by
  simp only [next]
  repeat' split
  all_goals first
    | rfl
    | exact more_append_cons h (by decide) _ _ _ _ _

/-- A byte of ASCII is read as its character, whatever stands in front of it. -/
theorem parts_append_cons {c : Char} (h : c.toNat < 0x80) (before after : Bytes) :
    parts (before ++ UInt8.ofNat c.toNat :: after) = parts before ++ some c :: parts after := by
  fun_induction parts before with
  | case1 => exact parts_cons_of_lt h after
  | case2 b rest step ih =>
    rw [List.cons_append, parts, next_append_cons h, ih]
    rfl

/-- What follows a text of ASCII is read for itself. -/
theorem parts_ascii_append {cs : List Char} (h : IsAscii cs) (rest : Bytes) :
    parts (ascii cs ++ rest) = cs.map some ++ parts rest := by
  induction cs with
  | nil => rfl
  | cons c cs ih =>
    have first : c.toNat < 0x80 := h c List.mem_cons_self
    have later : IsAscii cs := fun d hd => h d (List.mem_cons_of_mem c hd)
    rw [ascii_cons, List.cons_append, parts_cons_of_lt first, ih later, List.map_cons,
      List.cons_append]

theorem mapM_map_some_append (cs : List Char) (rest : List (Option Char)) :
    (cs.map some ++ rest).mapM id = (rest.mapM id).map (cs ++ ·) := by
  induction cs with
  | nil => simp
  | cons c cs ih =>
    rw [List.map_cons, List.cons_append, List.mapM_cons, ih]
    cases rest.mapM id <;> rfl

/-- The text of bytes that begin with a text of ASCII. -/
theorem decode?_ascii_append {cs : List Char} (h : IsAscii cs) (rest : Bytes) :
    decode? (ascii cs ++ rest) = (decode? rest).map fun s => .ofList (cs ++ s.toList) := by
  rw [decode?, decode?, parts_ascii_append h, mapM_map_some_append]
  cases (parts rest).mapM id <;> simp

/-- A text of ASCII is read back from its bytes. -/
theorem decode?_ascii {cs : List Char} (h : IsAscii cs) :
    decode? (ascii cs) = some (.ofList cs) := by
  have whole := decode?_ascii_append h []
  rw [List.append_nil] at whole
  rw [whole]
  simp [decode?, parts]

theorem eq_map_some_of_mapM {parts : List (Option Char)} {cs : List Char}
    (h : parts.mapM id = some cs) : parts = cs.map some := by
  induction parts generalizing cs with
  | nil =>
    cases h
    rfl
  | cons part parts ih =>
    rw [List.mapM_cons] at h
    obtain ⟨c, here, h⟩ := Option.bind_eq_some_iff.1 h
    obtain ⟨cs', later, h⟩ := Option.bind_eq_some_iff.1 h
    cases h
    rw [List.map_cons, ← ih later, ← here]
    rfl

/-- A byte of ASCII is never lost. -/
theorem mem_of_decode?_append_cons {c : Char} (h : c.toNat < 0x80) {before after : Bytes} {s : String}
    (read : decode? (before ++ UInt8.ofNat c.toNat :: after) = some s) : c ∈ s.toList := by
  rw [decode?, Option.map_eq_some_iff] at read
  obtain ⟨cs, read, rfl⟩ := read
  have parts := eq_map_some_of_mapM read
  rw [parts_append_cons h] at parts
  have there : some c ∈ cs.map some := by rw [← parts]; simp
  rw [String.toList_ofList]
  simpa using there

theorem toList_loop (bytes : ByteArray) (i : Nat) (r : List UInt8) :
    ByteArray.toList.loop bytes i r = r.reverse ++ bytes.data.toList.drop i := by
  fun_induction ByteArray.toList.loop bytes i r with
  | case1 i r inside ih =>
    have bound : i < bytes.data.toList.length := by simpa using inside
    rw [ih, List.drop_eq_getElem_cons bound]
    simp [ByteArray.get!, inside]
  | case2 i r outside =>
    rw [List.drop_eq_nil_of_le (by simpa using Nat.le_of_not_lt outside), List.append_nil]

theorem encode_eq (s : String) : encode s = s.toList.flatMap String.utf8EncodeChar := by
  have bytes : s.toUTF8 = s.toList.utf8Encode := String.utf8Encode_toList.symm
  rw [encode, bytes, ByteArray.toList, toList_loop, List.utf8Encode, List.toList_data_toByteArray]
  rfl

/-- A character of ASCII is one byte. -/
theorem encode_singleton {c : Char} (h : c.toNat < 0x80) :
    encode (String.singleton c) = [UInt8.ofNat c.toNat] := by
  have small : c.val.toNat ≤ 127 := Nat.le_of_lt_succ h
  rw [encode_eq, String.toList_singleton, List.flatMap_singleton, String.utf8EncodeChar]
  exact if_pos small

/-! ## All characters -/

/-- A byte that goes on with a character gives six more bits of it. -/
theorem more_cons {d : Nat} {lo hi : UInt8} (bits : d < 64) (low : lo.toNat ≤ d + 128)
    (high : d + 128 ≤ hi.toNat) (count n : Nat) (rest : Bytes) :
    more (count + 1) n lo hi (UInt8.ofNat (d + 128) :: rest) =
      more count (n * 64 + d) 0x80 0xBF rest := by
  have value : (UInt8.ofNat (d + 128)).toNat = d + 128 := toNat_ofNat_byte (by omega)
  rw [more, if_pos, value, Nat.add_sub_cancel]
  rw [UInt8.le_iff_toNat_le, UInt8.le_iff_toNat_le, value]
  exact ⟨low, high⟩

/-- A byte that goes on with a character, with no bounds of its own. -/
theorem more_cons_mod (count n m : Nat) (rest : Bytes) :
    more (count + 1) n 0x80 0xBF (UInt8.ofNat (m % 64 + 128) :: rest) =
      more count (n * 64 + m % 64) 0x80 0xBF rest :=
  more_cons (by omega) (by change 0x80 ≤ _; omega) (by change _ ≤ 0xBF; omega) count n rest

variable {v : Nat}

theorem next_two (low : 0x80 ≤ v) (high : v < 0x800) (rest : Bytes) :
    next (UInt8.ofNat (v / 64 % 32 + 192)) (UInt8.ofNat (v % 64 + 128) :: rest) =
      (some (Char.ofNat v), rest) := by
  have lead : (UInt8.ofNat (v / 64 % 32 + 192)).toNat = v / 64 % 32 + 192 :=
    toNat_ofNat_byte (by omega)
  have bits : (v / 64 % 32 + 192 - 0xC0) * 64 + v % 64 = v := by omega
  rw [next, lead]
  rw [if_neg (by omega), if_neg (by omega), if_pos (by omega), more_cons_mod, bits, more]

theorem next_three (low : 0x800 ≤ v) (high : v < 0x10000) (valid : v < 0xD800 ∨ 0xDFFF < v)
    (rest : Bytes) :
    next (UInt8.ofNat (v / 4096 % 16 + 224))
        (UInt8.ofNat (v / 64 % 64 + 128) :: UInt8.ofNat (v % 64 + 128) :: rest) =
      (some (Char.ofNat v), rest) := by
  have lead : (UInt8.ofNat (v / 4096 % 16 + 224)).toNat = v / 4096 % 16 + 224 :=
    toNat_ofNat_byte (by omega)
  have second : v / 64 % 64 < 64 := Nat.mod_lt _ (by decide)
  rw [next, lead]
  rw [if_neg (by omega), if_neg (by omega), if_neg (by omega)]
  split
  · have bits : (0 * 64 + v / 64 % 64) * 64 + v % 64 = v := by omega
    rw [more_cons second (by change 0xA0 ≤ _; omega) (by change _ ≤ 0xBF; omega), more_cons_mod,
      bits, more]
  split
  · have bits : (0x0D * 64 + v / 64 % 64) * 64 + v % 64 = v := by omega
    rw [more_cons second (by change 0x80 ≤ _; omega) (by change _ ≤ 0x9F; omega), more_cons_mod,
      bits, more]
  · have bits : ((v / 4096 % 16 + 224 - 0xE0) * 64 + v / 64 % 64) * 64 + v % 64 = v := by omega
    rw [if_pos (by omega), more_cons_mod, more_cons_mod, bits, more]

theorem next_four (low : 0x10000 ≤ v) (high : v < 0x110000) (rest : Bytes) :
    next (UInt8.ofNat (v / 262144 % 8 + 240))
        (UInt8.ofNat (v / 4096 % 64 + 128) :: UInt8.ofNat (v / 64 % 64 + 128) ::
          UInt8.ofNat (v % 64 + 128) :: rest) =
      (some (Char.ofNat v), rest) := by
  have lead : (UInt8.ofNat (v / 262144 % 8 + 240)).toNat = v / 262144 % 8 + 240 :=
    toNat_ofNat_byte (by omega)
  have second : v / 4096 % 64 < 64 := Nat.mod_lt _ (by decide)
  rw [next, lead]
  rw [if_neg (by omega), if_neg (by omega), if_neg (by omega), if_neg (by omega),
    if_neg (by omega), if_neg (by omega)]
  split
  · have bits : ((0 * 64 + v / 4096 % 64) * 64 + v / 64 % 64) * 64 + v % 64 = v := by omega
    rw [more_cons second (by change 0x90 ≤ _; omega) (by change _ ≤ 0xBF; omega), more_cons_mod,
      more_cons_mod, bits, more]
  split
  · have bits : (((v / 262144 % 8 + 240 - 0xF0) * 64 + v / 4096 % 64) * 64 + v / 64 % 64) * 64
        + v % 64 = v := by omega
    rw [more_cons_mod, more_cons_mod, more_cons_mod, bits, more]
  · have bits : ((4 * 64 + v / 4096 % 64) * 64 + v / 64 % 64) * 64 + v % 64 = v := by omega
    rw [if_pos (by omega), more_cons second (by change 0x80 ≤ _; omega)
      (by change _ ≤ 0x8F; omega), more_cons_mod, more_cons_mod, bits, more]

/-- The bytes of a character are read as that character, whatever follows. -/
theorem parts_utf8EncodeChar_append (c : Char) (rest : Bytes) :
    parts (String.utf8EncodeChar c ++ rest) = some c :: parts rest := by
  have range : c.toNat < 0xD800 ∨ (0xDFFF < c.toNat ∧ c.toNat < 0x110000) := c.valid
  have whole : c.val.toNat = c.toNat := rfl
  rw [String.utf8EncodeChar, whole]
  split
  · exact parts_cons_of_lt (by omega) rest
  split
  · rw [List.cons_append, List.singleton_append, parts, next_two (by omega) (by omega),
      Char.ofNat_toNat]
  split
  · rw [List.cons_append, List.cons_append, List.singleton_append, parts,
      next_three (by omega) (by omega) (by omega), Char.ofNat_toNat]
  · rw [List.cons_append, List.cons_append, List.cons_append, List.singleton_append, parts,
      next_four (by omega) (by omega), Char.ofNat_toNat]

/-- Every text is read back from its bytes. -/
theorem decode?_encode (s : String) : decode? (encode s) = some s := by
  have whole : ∀ cs : List Char, parts (cs.flatMap String.utf8EncodeChar) = cs.map some := by
    intro cs
    induction cs with
    | nil => simp [parts]
    | cons c cs ih => rw [List.flatMap_cons, parts_utf8EncodeChar_append, ih, List.map_cons]
  have read := mapM_map_some_append s.toList []
  rw [List.append_nil] at read
  rw [decode?, encode_eq, whole, read]
  simp

end WebCall.Utf8
