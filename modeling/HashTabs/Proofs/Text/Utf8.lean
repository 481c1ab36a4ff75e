import HashTabs.Text.Utf8

/-! Decoding undoes encoding: the bytes of a text are read back as that text, and nothing else is read
as a text. The byte bounds are checked on natural numbers, where the encoding is a matter of quotients
and remainders by 64. -/

namespace HashTabs.Text.Utf8

/-! ## Classes of bytes -/

theorem width_eq_one {a : UInt8} (h : a.toNat < 0x80) : width a = 1 := by
  have ha : a < 0x80 := UInt8.lt_iff_toNat_lt.mpr h
  rw [width, if_pos ha]

theorem width_eq {a : UInt8} (h : 0xC2 ≤ a.toNat) (h' : a.toNat < 0xF5) :
    width a = if a.toNat < 0xE0 then 2 else if a.toNat < 0xF0 then 3 else 4 := by
  simp only [width, UInt8.lt_iff_toNat_lt, UInt8.reduceToNat]
  rw [if_neg (by omega), if_neg (by omega), if_pos h']

theorem isTail_iff (b : UInt8) : isTail b = true ↔ 0x80 ≤ b.toNat ∧ b.toNat ≤ 0xBF := by
  simp only [isTail, decide_eq_true_eq, UInt8.le_iff_toNat_le, UInt8.reduceToNat]

theorem isSecond_iff {a b : UInt8} : isSecond a b = true ↔ (0x80 ≤ b.toNat ∧ b.toNat ≤ 0xBF) ∧
    (a.toNat = 0xE0 → 0xA0 ≤ b.toNat) ∧ (a.toNat = 0xED → b.toNat ≤ 0x9F) ∧
    (a.toNat = 0xF0 → 0x90 ≤ b.toNat) ∧ (a.toNat = 0xF4 → b.toNat ≤ 0x8F) := by
  simp only [isSecond, ← UInt8.toNat_inj, UInt8.le_iff_toNat_le, UInt8.reduceToNat]
  repeat' split
  all_goals
    simp only [decide_eq_true_eq, isTail_iff]
    omega

/-- The lead bytes by the number of bytes that they announce. -/
theorem width_cases (a : UInt8) :
    width a = 0 ∨ width a = 1 ∧ a.toNat < 0x80 ∨ width a = 2 ∧ 0xC2 ≤ a.toNat ∧ a.toNat < 0xE0 ∨
      width a = 3 ∧ 0xE0 ≤ a.toNat ∧ a.toNat < 0xF0 ∨
      width a = 4 ∧ 0xF0 ≤ a.toNat ∧ a.toNat < 0xF5 := by
  simp only [width, UInt8.lt_iff_toNat_lt, UInt8.reduceToNat]
  repeat' split
  all_goals omega

/-! ## Reading one character -/

theorem decodeFrom_one {a : UInt8} (i : Nat) (r : List UInt8) (hw : width a = 1) :
    decodeFrom i (a :: r) = (decodeFrom (i + 1) r).map (assemble a 128 [] :: ·) := by
  rw [decodeFrom.eq_def]
  simp [hw]

theorem decodeFrom_two {a b : UInt8} (i : Nat) (r : List UInt8) (hw : width a = 2)
    (hb : isSecond a b = true) :
    decodeFrom i (a :: b :: r) = (decodeFrom (i + 2) r).map (assemble a 32 [b] :: ·) := by
  rw [decodeFrom.eq_def]
  simp [hw, hb]

theorem decodeFrom_three {a b c : UInt8} (i : Nat) (r : List UInt8) (hw : width a = 3)
    (hb : isSecond a b = true) (hc : isTail c = true) :
    decodeFrom i (a :: b :: c :: r) = (decodeFrom (i + 3) r).map (assemble a 16 [b, c] :: ·) := by
  rw [decodeFrom.eq_def]
  simp [hw, hb, hc]

theorem decodeFrom_four {a b c d : UInt8} (i : Nat) (r : List UInt8) (hw : width a = 4)
    (hb : isSecond a b = true) (hc : isTail c = true) (hd : isTail d = true) :
    decodeFrom i (a :: b :: c :: d :: r) =
      (decodeFrom (i + 4) r).map (assemble a 8 [b, c, d] :: ·) := by
  rw [decodeFrom.eq_def]
  simp [hw, hb, hc, hd]

theorem toNat_ofNat_of_lt {n : Nat} (h : n < 256) : (UInt8.ofNat n).toNat = n := by
  rw [UInt8.toNat_ofNat']
  exact Nat.mod_eq_of_lt h

theorem char_lt (c : Char) : c.toNat < 0xD800 ∨ 0xDFFF < c.toNat ∧ c.toNat < 0x110000 := c.valid

theorem char_eq_ofNat {c : Char} {n : Nat} (h : n = c.toNat) : Char.ofNat n = c := by
  rw [h, Char.ofNat_toNat]

theorem encodeChar_one {c : Char} (h : c.toNat ≤ 0x7F) :
    String.utf8EncodeChar c = [UInt8.ofNat c.toNat] :=
  if_pos h

theorem encodeChar_two {c : Char} (h : 0x7F < c.toNat) (h' : c.toNat ≤ 0x7FF) :
    String.utf8EncodeChar c =
      [UInt8.ofNat (c.toNat / 64 % 32 + 0xC0), UInt8.ofNat (c.toNat % 64 + 0x80)] :=
  (if_neg (Nat.not_le.mpr h)).trans (if_pos h')

theorem encodeChar_three {c : Char} (h : 0x7FF < c.toNat) (h' : c.toNat ≤ 0xFFFF) :
    String.utf8EncodeChar c =
      [UInt8.ofNat (c.toNat / 4096 % 16 + 0xE0), UInt8.ofNat (c.toNat / 64 % 64 + 0x80),
        UInt8.ofNat (c.toNat % 64 + 0x80)] :=
  (if_neg (show ¬c.toNat ≤ 0x7F by omega)).trans
    ((if_neg (Nat.not_le.mpr h)).trans (if_pos h'))

theorem encodeChar_four {c : Char} (h : 0xFFFF < c.toNat) :
    String.utf8EncodeChar c =
      [UInt8.ofNat (c.toNat / 262144 % 8 + 0xF0), UInt8.ofNat (c.toNat / 4096 % 64 + 0x80),
        UInt8.ofNat (c.toNat / 64 % 64 + 0x80), UInt8.ofNat (c.toNat % 64 + 0x80)] :=
  (if_neg (show ¬c.toNat ≤ 0x7F by omega)).trans
    ((if_neg (show ¬c.toNat ≤ 0x7FF by omega)).trans (if_neg (Nat.not_le.mpr h)))

/-! ## Reading the bytes of one character -/

theorem decodeFrom_encodeChar_one {c : Char} (i : Nat) (r : List UInt8) (h : c.toNat ≤ 0x7F) :
    decodeFrom i (String.utf8EncodeChar c ++ r) = (decodeFrom (i + 1) r).map (c :: ·) := by
  have ha := toNat_ofNat_of_lt (n := c.toNat) (by omega)
  have hchar : assemble (UInt8.ofNat c.toNat) 128 [] = c := by
    rw [assemble, ha]
    exact char_eq_ofNat (Nat.mod_eq_of_lt (by omega))
  rw [encodeChar_one h, List.singleton_append,
    decodeFrom_one i r (width_eq_one (by rw [ha]; omega)), hchar]

theorem decodeFrom_encodeChar_two {c : Char} (i : Nat) (r : List UInt8) (h : 0x7F < c.toNat)
    (h' : c.toNat ≤ 0x7FF) :
    decodeFrom i (String.utf8EncodeChar c ++ r) = (decodeFrom (i + 2) r).map (c :: ·) := by
  have ha := toNat_ofNat_of_lt (n := c.toNat / 64 % 32 + 0xC0) (by omega)
  have hb := toNat_ofNat_of_lt (n := c.toNat % 64 + 0x80) (by omega)
  have hw : width (UInt8.ofNat (c.toNat / 64 % 32 + 0xC0)) = 2 := by
    rw [width_eq (by rw [ha]; omega) (by rw [ha]; omega), ha, if_pos (by omega)]
  -- No lead byte of two-byte forms narrows the choice of the second byte.
  have hsecond : isSecond (UInt8.ofNat (c.toNat / 64 % 32 + 0xC0))
      (UInt8.ofNat (c.toNat % 64 + 0x80)) = true :=
    isSecond_iff.mpr (by rw [ha, hb]; omega)
  have hchar : assemble (UInt8.ofNat (c.toNat / 64 % 32 + 0xC0)) 32
      [UInt8.ofNat (c.toNat % 64 + 0x80)] = c := by
    simp only [assemble, List.foldl_cons, List.foldl_nil, ha, hb]
    exact char_eq_ofNat (by omega)
  rw [encodeChar_two h h', List.cons_append, List.singleton_append,
    decodeFrom_two i r hw hsecond, hchar]

theorem decodeFrom_encodeChar_three {c : Char} (i : Nat) (r : List UInt8) (h : 0x7FF < c.toNat)
    (h' : c.toNat ≤ 0xFFFF) :
    decodeFrom i (String.utf8EncodeChar c ++ r) = (decodeFrom (i + 3) r).map (c :: ·) := by
  have hc := char_lt c
  have ha := toNat_ofNat_of_lt (n := c.toNat / 4096 % 16 + 0xE0) (by omega)
  have hb := toNat_ofNat_of_lt (n := c.toNat / 64 % 64 + 0x80) (by omega)
  have hd := toNat_ofNat_of_lt (n := c.toNat % 64 + 0x80) (by omega)
  have hw : width (UInt8.ofNat (c.toNat / 4096 % 16 + 0xE0)) = 3 := by
    rw [width_eq (by rw [ha]; omega) (by rw [ha]; omega), ha, if_neg (by omega),
      if_pos (by omega)]
  -- The second byte excludes overlong forms after 0xE0 and surrogates after 0xED.
  have hsecond : isSecond (UInt8.ofNat (c.toNat / 4096 % 16 + 0xE0))
      (UInt8.ofNat (c.toNat / 64 % 64 + 0x80)) = true :=
    isSecond_iff.mpr (by rw [ha, hb]; omega)
  have htail : isTail (UInt8.ofNat (c.toNat % 64 + 0x80)) = true :=
    (isTail_iff _).mpr (by rw [hd]; omega)
  have hchar : assemble (UInt8.ofNat (c.toNat / 4096 % 16 + 0xE0)) 16
      [UInt8.ofNat (c.toNat / 64 % 64 + 0x80), UInt8.ofNat (c.toNat % 64 + 0x80)] = c := by
    simp only [assemble, List.foldl_cons, List.foldl_nil, ha, hb, hd]
    exact char_eq_ofNat (by omega)
  rw [encodeChar_three h h', List.cons_append, List.cons_append, List.singleton_append,
    decodeFrom_three i r hw hsecond htail, hchar]

theorem decodeFrom_encodeChar_four {c : Char} (i : Nat) (r : List UInt8) (h : 0xFFFF < c.toNat) :
    decodeFrom i (String.utf8EncodeChar c ++ r) = (decodeFrom (i + 4) r).map (c :: ·) := by
  have hc := char_lt c
  have ha := toNat_ofNat_of_lt (n := c.toNat / 262144 % 8 + 0xF0) (by omega)
  have hb := toNat_ofNat_of_lt (n := c.toNat / 4096 % 64 + 0x80) (by omega)
  have hd := toNat_ofNat_of_lt (n := c.toNat / 64 % 64 + 0x80) (by omega)
  have he := toNat_ofNat_of_lt (n := c.toNat % 64 + 0x80) (by omega)
  have hw : width (UInt8.ofNat (c.toNat / 262144 % 8 + 0xF0)) = 4 := by
    rw [width_eq (by rw [ha]; omega) (by rw [ha]; omega), ha, if_neg (by omega),
      if_neg (by omega)]
  -- The second byte excludes overlong forms after 0xF0 and, after 0xF4, what lies past the last
  -- code point.
  have hsecond : isSecond (UInt8.ofNat (c.toNat / 262144 % 8 + 0xF0))
      (UInt8.ofNat (c.toNat / 4096 % 64 + 0x80)) = true :=
    isSecond_iff.mpr (by rw [ha, hb]; omega)
  have htail : isTail (UInt8.ofNat (c.toNat / 64 % 64 + 0x80)) = true :=
    (isTail_iff _).mpr (by rw [hd]; omega)
  have hlast : isTail (UInt8.ofNat (c.toNat % 64 + 0x80)) = true :=
    (isTail_iff _).mpr (by rw [he]; omega)
  have hchar : assemble (UInt8.ofNat (c.toNat / 262144 % 8 + 0xF0)) 8
      [UInt8.ofNat (c.toNat / 4096 % 64 + 0x80), UInt8.ofNat (c.toNat / 64 % 64 + 0x80),
        UInt8.ofNat (c.toNat % 64 + 0x80)] = c := by
    simp only [assemble, List.foldl_cons, List.foldl_nil, ha, hb, hd, he]
    exact char_eq_ofNat (by omega)
  rw [encodeChar_four h, List.cons_append, List.cons_append, List.cons_append,
    List.singleton_append, decodeFrom_four i r hw hsecond htail hlast, hchar]

theorem decodeFrom_encodeChar (c : Char) (i : Nat) (r : List UInt8) :
    ∃ j, decodeFrom i (String.utf8EncodeChar c ++ r) = (decodeFrom j r).map (c :: ·) := by
  -- One case for each number of bytes.
  by_cases h₁ : c.toNat ≤ 0x7F
  · exact ⟨_, decodeFrom_encodeChar_one i r h₁⟩
  by_cases h₂ : c.toNat ≤ 0x7FF
  · exact ⟨_, decodeFrom_encodeChar_two i r (Nat.lt_of_not_le h₁) h₂⟩
  by_cases h₃ : c.toNat ≤ 0xFFFF
  · exact ⟨_, decodeFrom_encodeChar_three i r (Nat.lt_of_not_le h₂) h₃⟩
  · exact ⟨_, decodeFrom_encodeChar_four i r (Nat.lt_of_not_le h₃)⟩

theorem decodeFrom_encode (s : List Char) (i : Nat) : decodeFrom i (encode s) = .ok s := by
  induction s generalizing i with
  | nil => rfl
  | cons c s ih =>
    obtain ⟨j, hj⟩ := decodeFrom_encodeChar c i (encode s)
    rw [encode_cons, hj, ih]
    rfl

/-- The bytes of a text are read as that text. -/
theorem decode_encode (s : List Char) : decode (encode s) = .ok s := decodeFrom_encode s 0

/-! ## Bytes that are read -/

theorem toNat_assemble {a : UInt8} {share n : Nat} {bs : List UInt8}
    (hn : bs.foldl (fun n b => n * 64 + b.toNat % 64) (a.toNat % share) = n)
    (h : n < 0xD800 ∨ 0xDFFF < n ∧ n < 0x110000) : (assemble a share bs).toNat = n := by
  unfold assemble Char.ofNat
  rw [hn, dif_pos h]
  rfl

theorem byte_eq_ofNat {b : UInt8} {n : Nat} (h : n = b.toNat) : UInt8.ofNat n = b := by
  rw [h, UInt8.ofNat_toNat]

theorem encodeChar_assemble_one {a : UInt8} (hw : width a = 1) :
    String.utf8EncodeChar (assemble a 128 []) = [a] := by
  have ha := width_cases a
  have hc : (assemble a 128 []).toNat = a.toNat % 128 := toNat_assemble rfl (by omega)
  rw [encodeChar_one (by omega), hc, byte_eq_ofNat (b := a) (by omega)]

theorem encodeChar_assemble_two {a b : UInt8} (hw : width a = 2) (hb : isSecond a b = true) :
    String.utf8EncodeChar (assemble a 32 [b]) = [a, b] := by
  have ha := width_cases a
  have hb := isSecond_iff.mp hb
  have hc : (assemble a 32 [b]).toNat = a.toNat % 32 * 64 + b.toNat % 64 :=
    toNat_assemble rfl (by omega)
  rw [encodeChar_two (by omega) (by omega), hc, byte_eq_ofNat (b := a) (by omega),
    byte_eq_ofNat (b := b) (by omega)]

theorem encodeChar_assemble_three {a b c : UInt8} (hw : width a = 3) (hb : isSecond a b = true)
    (hc : isTail c = true) : String.utf8EncodeChar (assemble a 16 [b, c]) = [a, b, c] := by
  have ha := width_cases a
  have hb := isSecond_iff.mp hb
  have hc := (isTail_iff c).mp hc
  have hn : (assemble a 16 [b, c]).toNat =
      (a.toNat % 16 * 64 + b.toNat % 64) * 64 + c.toNat % 64 := toNat_assemble rfl (by omega)
  rw [encodeChar_three (by omega) (by omega), hn, byte_eq_ofNat (b := a) (by omega),
    byte_eq_ofNat (b := b) (by omega), byte_eq_ofNat (b := c) (by omega)]

theorem encodeChar_assemble_four {a b c d : UInt8} (hw : width a = 4) (hb : isSecond a b = true)
    (hc : isTail c = true) (hd : isTail d = true) :
    String.utf8EncodeChar (assemble a 8 [b, c, d]) = [a, b, c, d] := by
  have ha := width_cases a
  have hb := isSecond_iff.mp hb
  have hc := (isTail_iff c).mp hc
  have hd := (isTail_iff d).mp hd
  have hn : (assemble a 8 [b, c, d]).toNat =
      ((a.toNat % 8 * 64 + b.toNat % 64) * 64 + c.toNat % 64) * 64 + d.toNat % 64 :=
    toNat_assemble rfl (by omega)
  rw [encodeChar_four (by omega), hn, byte_eq_ofNat (b := a) (by omega),
    byte_eq_ofNat (b := b) (by omega), byte_eq_ofNat (b := c) (by omega),
    byte_eq_ofNat (b := d) (by omega)]

theorem encode_of_map {c : Char} {x : Except Fault (List Char)} {s : List Char} {r : List UInt8}
    (h : x.map (c :: ·) = .ok s) (hx : ∀ t, x = .ok t → encode t = r) :
    encode s = String.utf8EncodeChar c ++ r := by
  cases x with
  | error f => cases h
  | ok t =>
    obtain rfl := Except.ok.inj h
    rw [encode_cons, hx t rfl]

theorem encode_of_decodeFrom {i : Nat} {bs : List UInt8} {s : List Char}
    (h : decodeFrom i bs = .ok s) : encode s = bs := by
  fun_induction decodeFrom i bs generalizing s with
  | case1 =>
    obtain rfl := Except.ok.inj h
    rfl
  | case2 _ a r hw ih => rw [encode_of_map h fun t ht => ih ht, encodeChar_assemble_one hw]; rfl
  | case6 _ a _ _ b r hb hw ih =>
    rw [encode_of_map h fun t ht => ih ht, encodeChar_assemble_two hw (by simpa using hb)]
    rfl
  | case9 _ a _ _ b hb _ c r hc hw ih =>
    rw [encode_of_map h fun t ht => ih ht,
      encodeChar_assemble_three hw (by simpa using hb) (by simpa using hc)]
    rfl
  | case12 _ a _ _ b hb _ c hc _ d r hd ih =>
    have hw : width a = 4 := by
      have := width_cases a
      omega
    rw [encode_of_map h fun t ht => ih ht,
      encodeChar_assemble_four hw (by simpa using hb) (by simpa using hc) (by simpa using hd)]
    rfl
  | _ => cases h

/-- Bytes are read as a text just if they are the bytes of that text. -/
theorem decode_eq_ok_iff {bs : List UInt8} {s : List Char} :
    decode bs = .ok s ↔ bs = encode s :=
  ⟨fun h => (encode_of_decodeFrom h).symm, fun h => h ▸ decode_encode s⟩

theorem encode_of_ascii {s : List Char} (h : ∀ c ∈ s, c.toNat ≤ 0x7F) :
    encode s = s.map fun c => UInt8.ofNat c.toNat := by
  induction s with
  | nil => rfl
  | cons c s ih =>
    rw [encode_cons, encodeChar_one (h c List.mem_cons_self),
      ih fun d hd => h d (List.mem_cons_of_mem c hd)]
    rfl

/-- A byte of ASCII is not part of any other character. -/
theorem exists_of_mem_encode {s : List Char} {b : UInt8} (hb : b ∈ encode s)
    (h : b.toNat < 0x80) : ∃ c ∈ s, c.toNat = b.toNat := by
  obtain ⟨c, hc, hbc⟩ := List.mem_flatMap.mp hb
  have hne : ∀ n, 0x80 ≤ n → n < 256 → b ≠ UInt8.ofNat n := by
    rintro n hn hlt rfl
    rw [toNat_ofNat_of_lt hlt] at h
    omega
  refine ⟨c, hc, ?_⟩
  by_cases h₁ : c.toNat ≤ 0x7F
  · rw [encodeChar_one h₁, List.mem_singleton] at hbc
    rw [hbc, toNat_ofNat_of_lt (by omega)]
  -- Every byte of a longer character is beyond ASCII.
  by_cases h₂ : c.toNat ≤ 0x7FF
  · rw [encodeChar_two (by omega) h₂] at hbc
    simp only [List.mem_cons, List.not_mem_nil, or_false] at hbc
    rcases hbc with hbc | hbc <;> exact absurd hbc (hne _ (by omega) (by omega))
  by_cases h₃ : c.toNat ≤ 0xFFFF
  · rw [encodeChar_three (by omega) h₃] at hbc
    simp only [List.mem_cons, List.not_mem_nil, or_false] at hbc
    rcases hbc with hbc | hbc | hbc <;> exact absurd hbc (hne _ (by omega) (by omega))
  · rw [encodeChar_four (by omega)] at hbc
    simp only [List.mem_cons, List.not_mem_nil, or_false] at hbc
    rcases hbc with hbc | hbc | hbc | hbc <;> exact absurd hbc (hne _ (by omega) (by omega))

end HashTabs.Text.Utf8
