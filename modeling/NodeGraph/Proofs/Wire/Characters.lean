import NodeGraph.Text.Utf8

/-!
# Characters and their bytes

The reader of UTF-8 decides by ranges of single bytes what may stand where. That
these ranges are the right ones is not seen from the ranges: it is that

> `head_eq_char_iff`: the input begins with a character exactly if it begins with
> the bytes of that character.

Nothing overlong, no surrogate and nothing too large is let through (left to
right), and no character is turned away (right to left). Both directions are
arithmetic on the values of at most four bytes, once `isTail` and `mayFollow` are
read as bounds on numbers.

> `decode_eq_ok_iff`: a byte sequence is read as a text exactly if it is the
> text's bytes.
-/

namespace NodeGraph.Utf8

/-! ## Bytes as numbers -/

theorem isTail_iff {b : UInt8} : isTail b = true ↔ 0x80 ≤ b.toNat ∧ b.toNat < 0xC0 := by
  unfold isTail
  rw [Bool.and_eq_true, decide_eq_true_iff, decide_eq_true_iff, UInt8.le_iff_toNat_le,
    UInt8.lt_iff_toNat_lt]
  rfl

/-- A second byte continues a character, and lead bytes at the edges of their range
ask for more. -/
theorem mayFollow_iff {a b : UInt8} : mayFollow a b = true ↔
    (0x80 ≤ b.toNat ∧ b.toNat < 0xC0) ∧ (a.toNat = 0xE0 → 0xA0 ≤ b.toNat) ∧
      (a.toNat = 0xED → b.toNat < 0xA0) ∧ (a.toNat = 0xF0 → 0x90 ≤ b.toNat) ∧
      (a.toNat = 0xF4 → b.toNat < 0x90) := by
  have hb := b.toNat_lt
  unfold mayFollow isTail
  simp only [← UInt8.toNat_inj, UInt8.le_iff_toNat_le, UInt8.lt_iff_toNat_lt, UInt8.reduceToNat]
  split
  · simp only [Bool.and_eq_true, decide_eq_true_iff]
    omega
  split
  · simp only [Bool.and_eq_true, decide_eq_true_iff]
    omega
  split
  · simp only [Bool.and_eq_true, decide_eq_true_iff]
    omega
  split
  · simp only [Bool.and_eq_true, decide_eq_true_iff]
    omega
  · simp only [Bool.and_eq_true, decide_eq_true_iff]
    omega

/-- A byte is the one of its number. -/
theorem eq_ofNat {a : UInt8} {n : Nat} (h : a.toNat = n) : a = UInt8.ofNat n := by
  rw [← h, UInt8.ofNat_toNat]

/-- A number that is a character's is got back from it. -/
theorem toNat_ofNat {n : Nat} (h : n.isValidChar) : (Char.ofNat n).toNat = n := by
  unfold Char.ofNat
  rw [dif_pos h]
  rfl

/-! ## The bytes of a character, by its number -/

section

variable {c : Char}

theorem encodeChar_one (h : c.toNat ≤ 0x7F) :
    String.utf8EncodeChar c = [UInt8.ofNat c.toNat] := by
  unfold String.utf8EncodeChar
  simp only [Char.toNat_val]
  rw [if_pos h]

theorem encodeChar_two (hmin : 0x7F < c.toNat) (hmax : c.toNat ≤ 0x7FF) :
    String.utf8EncodeChar c =
      [UInt8.ofNat (c.toNat / 64 % 32 + 0xC0), UInt8.ofNat (c.toNat % 64 + 0x80)] := by
  unfold String.utf8EncodeChar
  simp only [Char.toNat_val]
  rw [if_neg (by omega), if_pos hmax]

theorem encodeChar_three (hmin : 0x7FF < c.toNat) (hmax : c.toNat ≤ 0xFFFF) :
    String.utf8EncodeChar c =
      [UInt8.ofNat (c.toNat / 4096 % 16 + 0xE0), UInt8.ofNat (c.toNat / 64 % 64 + 0x80),
        UInt8.ofNat (c.toNat % 64 + 0x80)] := by
  unfold String.utf8EncodeChar
  simp only [Char.toNat_val]
  rw [if_neg (by omega), if_neg (by omega), if_pos hmax]

theorem encodeChar_four (hmin : 0xFFFF < c.toNat) :
    String.utf8EncodeChar c =
      [UInt8.ofNat (c.toNat / 262144 % 8 + 0xF0), UInt8.ofNat (c.toNat / 4096 % 64 + 0x80),
        UInt8.ofNat (c.toNat / 64 % 64 + 0x80), UInt8.ofNat (c.toNat % 64 + 0x80)] := by
  unfold String.utf8EncodeChar
  simp only [Char.toNat_val]
  rw [if_neg (by omega), if_neg (by omega), if_neg (by omega)]

end

/-! ## What `head` lets through -/

/-- The front of the input when it is a character: one to four bytes, each within
its bounds. -/
theorem head_cases {bs rest : List UInt8} {c : Char} (h : head bs = .char c rest) :
    (∃ a : UInt8, bs = a :: rest ∧ a.toNat < 0x80 ∧ c = Char.ofNat a.toNat) ∨
    (∃ a b : UInt8, bs = a :: b :: rest ∧ 0xC2 ≤ a.toNat ∧ a.toNat < 0xE0 ∧
      mayFollow a b = true ∧ c = ofTwo a b) ∨
    (∃ a b d : UInt8, bs = a :: b :: d :: rest ∧ 0xE0 ≤ a.toNat ∧ a.toNat < 0xF0 ∧
      mayFollow a b = true ∧ isTail d = true ∧ c = ofThree a b d) ∨
    (∃ a b d e : UInt8, bs = a :: b :: d :: e :: rest ∧ 0xF0 ≤ a.toNat ∧ a.toNat < 0xF5 ∧
      mayFollow a b = true ∧ isTail d = true ∧ isTail e = true ∧ c = ofFour a b d e) := by
  cases bs with
  | nil => simp [head] at h
  | cons a bs =>
    simp only [head, Bool.or_eq_true, decide_eq_true_iff] at h
    simp only [UInt8.lt_iff_toNat_lt, UInt8.le_iff_toNat_le, UInt8.reduceToNat] at h
    split at h
    next ha =>
      injection h with hc hrest
      exact .inl ⟨a, by rw [hrest], ha, hc.symm⟩
    next ha =>
      split at h
      next => simp at h
      next hlead =>
        rw [not_or] at hlead
        cases bs with
        | nil => simp [headLong] at h
        | cons b bs =>
          simp only [headLong, UInt8.lt_iff_toNat_lt, UInt8.reduceToNat] at h
          split at h
          next hb =>
            split at h
            next htwo =>
              injection h with hc hrest
              exact .inr (.inl ⟨a, b, by rw [hrest], by omega, htwo, hb, hc.symm⟩)
            next htwo =>
              split at h
              next hthree =>
                cases bs with
                | nil => simp [headThree] at h
                | cons d bs =>
                  simp only [headThree] at h
                  split at h
                  next hd =>
                    injection h with hc hrest
                    exact .inr (.inr (.inl
                      ⟨a, b, d, by rw [hrest], by omega, hthree, hb, hd, hc.symm⟩))
                  next => simp at h
              next hthree =>
                cases bs with
                | nil => simp [headFour] at h
                | cons d bs =>
                  cases bs with
                  | nil =>
                    simp only [headFour] at h
                    split at h <;> simp at h
                  | cons e bs =>
                    simp only [headFour] at h
                    split at h
                    next hd =>
                      split at h
                      next he =>
                        injection h with hc hrest
                        exact .inr (.inr (.inr
                          ⟨a, b, d, e, by rw [hrest], by omega, by omega, hb, hd, he, hc.symm⟩))
                      next => simp at h
                    next => simp at h
          next => simp at h

/-- What is let through are the bytes of the character. -/
theorem eq_encodeChar_of_head {bs rest : List UInt8} {c : Char} (h : head bs = .char c rest) :
    bs = String.utf8EncodeChar c ++ rest := by
  rcases head_cases h with ⟨a, rfl, ha, hc⟩ | ⟨a, b, rfl, hmin, hmax, hb, hc⟩ |
    ⟨a, b, d, rfl, hmin, hmax, hb, hd, hc⟩ | ⟨a, b, d, e, rfl, hmin, hmax, hb, hd, he, hc⟩
  · rw [hc]
    have hn := toNat_ofNat (n := a.toNat) (by unfold Nat.isValidChar; omega)
    rw [encodeChar_one (by omega), hn, UInt8.ofNat_toNat]
    rfl
  · obtain ⟨hb, -⟩ := mayFollow_iff.mp hb
    rw [hc]
    unfold ofTwo tailBits
    have hn := toNat_ofNat (n := (a.toNat - 0xC0) * 0x40 + (b.toNat - 0x80))
      (by unfold Nat.isValidChar; omega)
    rw [encodeChar_two (by omega) (by omega), hn, ← eq_ofNat (a := a) (by omega),
      ← eq_ofNat (a := b) (by omega)]
    rfl
  · -- the bounds on the second byte keep the value off what takes less and off surrogates
    obtain ⟨hb, hlow, hsurrogate, -⟩ := mayFollow_iff.mp hb
    have hd := isTail_iff.mp hd
    rw [hc]
    unfold ofThree tailBits
    have hn := toNat_ofNat
      (n := (a.toNat - 0xE0) * 0x1000 + (b.toNat - 0x80) * 0x40 + (d.toNat - 0x80))
      (by unfold Nat.isValidChar; omega)
    rw [encodeChar_three (by omega) (by omega), hn, ← eq_ofNat (a := a) (by omega),
      ← eq_ofNat (a := b) (by omega), ← eq_ofNat (a := d) (by omega)]
    rfl
  · -- here they keep it off what takes less and below the largest character
    obtain ⟨hb, -, -, hlow, hhigh⟩ := mayFollow_iff.mp hb
    have hd := isTail_iff.mp hd
    have he := isTail_iff.mp he
    rw [hc]
    unfold ofFour tailBits
    have hn := toNat_ofNat
      (n := (a.toNat - 0xF0) * 0x40000 + (b.toNat - 0x80) * 0x1000 + (d.toNat - 0x80) * 0x40 +
        (e.toNat - 0x80))
      (by unfold Nat.isValidChar; omega)
    rw [encodeChar_four (by omega), hn, ← eq_ofNat (a := a) (by omega),
      ← eq_ofNat (a := b) (by omega), ← eq_ofNat (a := d) (by omega),
      ← eq_ofNat (a := e) (by omega)]
    rfl

/-! Each of the four shapes is let through if its bytes are within bounds. -/

theorem head_one {a : UInt8} (ha : a.toNat < 0x80) (rest : List UInt8) :
    head (a :: rest) = .char (Char.ofNat a.toNat) rest := by
  have ha : a < 0x80 := UInt8.lt_iff_toNat_lt.mpr ha
  simp only [head]
  rw [if_pos ha]

/-- A lead byte that is neither plain nor out of range asks for more. -/
theorem head_long {a : UInt8} (hmin : 0xC2 ≤ a.toNat) (hmax : a.toNat < 0xF5)
    (rest : List UInt8) : head (a :: rest) = headLong a rest := by
  unfold head
  simp only [Bool.or_eq_true, decide_eq_true_iff, UInt8.lt_iff_toNat_lt, UInt8.le_iff_toNat_le,
    UInt8.reduceToNat]
  rw [if_neg (by omega), if_neg (by omega)]

theorem head_two {a b : UInt8} (hmin : 0xC2 ≤ a.toNat) (hmax : a.toNat < 0xE0)
    (hb : mayFollow a b = true) (rest : List UInt8) :
    head (a :: b :: rest) = .char (ofTwo a b) rest := by
  rw [head_long hmin (by omega)]
  simp only [headLong, UInt8.lt_iff_toNat_lt, UInt8.reduceToNat]
  rw [if_pos hb, if_pos hmax]

theorem head_three {a b d : UInt8} (hmin : 0xE0 ≤ a.toNat) (hmax : a.toNat < 0xF0)
    (hb : mayFollow a b = true) (hd : isTail d = true) (rest : List UInt8) :
    head (a :: b :: d :: rest) = .char (ofThree a b d) rest := by
  rw [head_long (by omega) (by omega)]
  simp only [headLong, headThree, UInt8.lt_iff_toNat_lt, UInt8.reduceToNat]
  rw [if_pos hb, if_neg (by omega), if_pos hmax, if_pos hd]

theorem head_four {a b d e : UInt8} (hmin : 0xF0 ≤ a.toNat) (hmax : a.toNat < 0xF5)
    (hb : mayFollow a b = true) (hd : isTail d = true) (he : isTail e = true)
    (rest : List UInt8) : head (a :: b :: d :: e :: rest) = .char (ofFour a b d e) rest := by
  rw [head_long (by omega) hmax]
  simp only [headLong, headFour, UInt8.lt_iff_toNat_lt, UInt8.reduceToNat]
  rw [if_pos hb, if_neg (by omega), if_neg (by omega), if_pos hd, if_pos he]

/-- A number below 256 is a byte's. -/
theorem exists_byte {n : Nat} (h : n < 256) : ∃ a : UInt8, UInt8.ofNat n = a ∧ a.toNat = n :=
  ⟨_, rfl, UInt8.toNat_ofNat_of_lt' h⟩

/-- Every character is let through. -/
theorem head_encodeChar (c : Char) (rest : List UInt8) :
    head (String.utf8EncodeChar c ++ rest) = .char c rest := by
  have hvalid : c.toNat < 0xD800 ∨ 0xDFFF < c.toNat ∧ c.toNat < 0x110000 := c.valid
  by_cases hone : c.toNat ≤ 0x7F
  · obtain ⟨a, ha, han⟩ := exists_byte (n := c.toNat) (by omega)
    rw [encodeChar_one hone, ha]
    refine (head_one (by omega) rest).trans ?_
    rw [han, Char.ofNat_toNat]
  by_cases htwo : c.toNat ≤ 0x7FF
  · obtain ⟨a, ha, han⟩ := exists_byte (n := c.toNat / 64 % 32 + 0xC0) (by omega)
    obtain ⟨b, hb, hbn⟩ := exists_byte (n := c.toNat % 64 + 0x80) (by omega)
    rw [encodeChar_two (by omega) htwo, ha, hb]
    refine (head_two (by omega) (by omega) (mayFollow_iff.mpr (by omega)) rest).trans ?_
    unfold ofTwo tailBits
    rw [show (a.toNat - 0xC0) * 0x40 + (b.toNat - 0x80) = c.toNat by omega, Char.ofNat_toNat]
  by_cases hthree : c.toNat ≤ 0xFFFF
  · obtain ⟨a, ha, han⟩ := exists_byte (n := c.toNat / 4096 % 16 + 0xE0) (by omega)
    obtain ⟨b, hb, hbn⟩ := exists_byte (n := c.toNat / 64 % 64 + 0x80) (by omega)
    obtain ⟨d, hd, hdn⟩ := exists_byte (n := c.toNat % 64 + 0x80) (by omega)
    rw [encodeChar_three (by omega) hthree, ha, hb, hd]
    refine (head_three (by omega) (by omega) (mayFollow_iff.mpr (by omega))
      (isTail_iff.mpr (by omega)) rest).trans ?_
    unfold ofThree tailBits
    rw [show (a.toNat - 0xE0) * 0x1000 + (b.toNat - 0x80) * 0x40 + (d.toNat - 0x80) = c.toNat
      by omega, Char.ofNat_toNat]
  · obtain ⟨a, ha, han⟩ := exists_byte (n := c.toNat / 262144 % 8 + 0xF0) (by omega)
    obtain ⟨b, hb, hbn⟩ := exists_byte (n := c.toNat / 4096 % 64 + 0x80) (by omega)
    obtain ⟨d, hd, hdn⟩ := exists_byte (n := c.toNat / 64 % 64 + 0x80) (by omega)
    obtain ⟨e, he, hen⟩ := exists_byte (n := c.toNat % 64 + 0x80) (by omega)
    rw [encodeChar_four (by omega), ha, hb, hd, he]
    refine (head_four (by omega) (by omega) (mayFollow_iff.mpr (by omega))
      (isTail_iff.mpr (by omega)) (isTail_iff.mpr (by omega)) rest).trans ?_
    unfold ofFour tailBits
    rw [show (a.toNat - 0xF0) * 0x40000 + (b.toNat - 0x80) * 0x1000 + (d.toNat - 0x80) * 0x40 +
      (e.toNat - 0x80) = c.toNat by omega, Char.ofNat_toNat]

/-- **The input begins with a character exactly if it begins with its bytes.** -/
theorem head_eq_char_iff {bs rest : List UInt8} {c : Char} :
    head bs = .char c rest ↔ bs = String.utf8EncodeChar c ++ rest := by
  constructor
  · exact eq_encodeChar_of_head
  · intro h
    rw [h, head_encodeChar]

/-! ## Texts -/

/-- A character takes at least one byte. -/
theorem flatMap_encodeChar_ne_nil {c : Char} {cs : List Char} :
    (c :: cs).flatMap String.utf8EncodeChar ≠ [] := by
  rw [List.flatMap_cons]
  exact List.append_ne_nil_of_left_ne_nil String.utf8EncodeChar_ne_nil _

/-- An input that begins with no character is the bytes of no characters, unless it
is empty. -/
theorem ne_flatMap_of_head {bs : List UInt8} (hempty : ¬ bs.isEmpty = true)
    (hhead : ∀ c rest, head bs ≠ .char c rest) (cs : List Char) :
    bs ≠ cs.flatMap String.utf8EncodeChar := by
  intro h
  cases cs with
  | nil => exact hempty (by rw [h]; rfl)
  | cons c cs => exact hhead c _ (head_eq_char_iff.mpr h)

/-- Reading gives the characters exactly if the bytes are theirs, wherever the
count of bytes stands. The induction follows the reader, one character at a time. -/
theorem decodeFrom_eq_ok_iff {index : Nat} {bs : List UInt8} {cs : List Char} :
    decodeFrom index bs = .ok cs ↔ bs = cs.flatMap String.utf8EncodeChar := by
  fun_induction decodeFrom index bs generalizing cs with
  | case1 index bs hempty =>
    rw [List.isEmpty_iff.mp hempty]
    cases cs with
    | nil => exact iff_of_true rfl rfl
    | cons c cs => exact iff_of_false (by simp) flatMap_encodeChar_ne_nil.symm
  | case2 index bs hempty c rest hhead read hread ih =>
    have hbs := head_eq_char_iff.mp hhead
    constructor
    · intro h
      rw [← Except.ok.inj h, List.flatMap_cons, hbs, ← ih.mp hread]
    · intro h
      cases cs with
      | nil => exact absurd (List.isEmpty_iff.mpr h) hempty
      | cons d ds =>
        -- the same input cannot begin with two characters
        have hd := head_eq_char_iff.mpr h
        rw [hhead] at hd
        injection hd with hcd hrest
        have hds := ih.mpr hrest
        rw [hread] at hds
        rw [hcd, Except.ok.inj hds]
  | case3 index bs hempty c rest hhead fault hread ih =>
    refine iff_of_false (by simp) ?_
    intro h
    cases cs with
    | nil => exact hempty (List.isEmpty_iff.mpr h)
    | cons d ds =>
      have hd := head_eq_char_iff.mpr h
      rw [hhead] at hd
      injection hd with _ hrest
      have hds := ih.mpr hrest
      rw [hread] at hds
      simp at hds
  | case4 index bs hempty length hhead =>
    exact iff_of_false (by simp) (ne_flatMap_of_head hempty (by simp [hhead]) cs)
  | case5 index bs hempty hhead =>
    exact iff_of_false (by simp) (ne_flatMap_of_head hempty (by simp [hhead]) cs)

/-- **A byte sequence is read as a text exactly if it is the text's bytes.** -/
theorem decode_eq_ok_iff {bs : List UInt8} {s : String} : decode bs = .ok s ↔ bs = encode s := by
  unfold decode encode
  constructor
  · intro h
    cases hread : decodeFrom 0 bs with
    | error fault =>
      rw [hread] at h
      cases h
    | ok cs =>
      rw [hread] at h
      rw [← Except.ok.inj h, String.toList_ofList]
      exact decodeFrom_eq_ok_iff.mp hread
  · intro h
    rw [decodeFrom_eq_ok_iff.mpr h]
    exact congrArg Except.ok String.ofList_toList

/-- The bytes of a text are those that the string is stored as. -/
theorem encode_eq_toUTF8 (s : String) : encode s = s.toUTF8.data.toList := by
  have hstored : s.toUTF8 = s.toList.utf8Encode := by
    rw [← String.toByteArray_ofList, String.ofList_toList]
    rfl
  rw [hstored, List.utf8Encode, List.data_toByteArray]
  rfl

theorem length_encode (s : String) : (encode s).length = s.utf8ByteSize := by
  rw [encode_eq_toUTF8, Array.length_toList]
  exact String.size_toByteArray

end NodeGraph.Utf8
