import Nenes.Base.BigEndian

set_option autoImplicit false

namespace Unicode

abbrev Bytes := List UInt8
abbrev Units := List UInt16

def charUnits (c : Char) : Units :=
  if c.toNat < 0x10000 then [UInt16.ofNat c.toNat]
  else [UInt16.ofNat (0xD800 + (c.toNat - 0x10000) / 0x400), UInt16.ofNat (0xDC00 + (c.toNat - 0x10000) % 0x400)]

def encodeUtf16 (chars : List Char) : Units := chars.flatMap charUnits

def isHigh (unit : UInt16) : Bool := 0xD800 ≤ unit.toNat && unit.toNat < 0xDC00
def isLow (unit : UInt16) : Bool := 0xDC00 ≤ unit.toNat && unit.toNat < 0xE000

-- An encoder of code units replaces each unpaired surrogate by a question mark.
def decodeUtf16 : Units → List Char
  | [] => []
  | unit :: rest =>
      if isHigh unit then
        match rest with
        | [] => ['?']
        | low :: tail =>
            if isLow low then
              Char.ofNat (0x10000 + (unit.toNat - 0xD800) * 0x400 + (low.toNat - 0xDC00)) :: decodeUtf16 tail
            else '?' :: decodeUtf16 (low :: tail)
      else if isLow unit then '?' :: decodeUtf16 rest
      else Char.ofNat unit.toNat :: decodeUtf16 rest

def encodeUtf8 (chars : List Char) : Bytes := chars.flatMap String.utf8EncodeChar

def replacement : Char := Char.ofNat 0xFFFD

def isContinuation (byte : UInt8) : Bool := 0x80 ≤ byte.toNat && byte.toNat < 0xC0

def malformedSecond3 (b1 b2 : UInt8) : Bool := (b1.toNat == 0xE0 && b2.toNat < 0xA0) || !isContinuation b2

def malformedSecond4 (b1 b2 : UInt8) : Bool :=
  (b1.toNat == 0xF0 && b2.toNat < 0x90) || (b1.toNat == 0xF4 && 0x90 ≤ b2.toNat) || !isContinuation b2

-- A total decoder in the REPLACE mode of java.nio.charset: a malformed sequence
-- becomes one U+FFFD and decoding resumes after the bytes that were well formed
-- so far. A sequence cut off by the end of the input becomes one U+FFFD, and so
-- does a three-byte sequence that spells a surrogate.
def decodeUtf8 : Bytes → List Char
  | [] => []
  | b1 :: rest =>
      if b1.toNat < 0x80 then Char.ofNat b1.toNat :: decodeUtf8 rest
      else if 0xC2 ≤ b1.toNat ∧ b1.toNat < 0xE0 then
        match rest with
        | [] => [replacement]
        | b2 :: rest2 =>
            if isContinuation b2 then
              Char.ofNat ((b1.toNat - 0xC0) * 0x40 + (b2.toNat - 0x80)) :: decodeUtf8 rest2
            else replacement :: decodeUtf8 (b2 :: rest2)
      else if 0xE0 ≤ b1.toNat ∧ b1.toNat < 0xF0 then
        match rest with
        | [] => [replacement]
        | b2 :: rest2 =>
            if malformedSecond3 b1 b2 then replacement :: decodeUtf8 (b2 :: rest2)
            else match rest2 with
              | [] => [replacement]
              | b3 :: rest3 =>
                  if isContinuation b3 then
                    let code := (b1.toNat - 0xE0) * 0x1000 + (b2.toNat - 0x80) * 0x40 + (b3.toNat - 0x80)
                    if 0xD800 ≤ code ∧ code < 0xE000 then replacement :: decodeUtf8 rest3
                    else Char.ofNat code :: decodeUtf8 rest3
                  else replacement :: decodeUtf8 (b3 :: rest3)
      else if 0xF0 ≤ b1.toNat ∧ b1.toNat < 0xF5 then
        match rest with
        | [] => [replacement]
        | b2 :: rest2 =>
            if malformedSecond4 b1 b2 then replacement :: decodeUtf8 (b2 :: rest2)
            else match rest2 with
              | [] => [replacement]
              | b3 :: rest3 =>
                  if isContinuation b3 then
                    match rest3 with
                    | [] => [replacement]
                    | b4 :: rest4 =>
                        if isContinuation b4 then
                          Char.ofNat ((b1.toNat - 0xF0) * 0x40000 + (b2.toNat - 0x80) * 0x1000 +
                            (b3.toNat - 0x80) * 0x40 + (b4.toNat - 0x80)) :: decodeUtf8 rest4
                        else replacement :: decodeUtf8 (b4 :: rest4)
                  else replacement :: decodeUtf8 (b3 :: rest3)
      else replacement :: decodeUtf8 rest

example : decodeUtf8 [0x61, 0xE2, 0x82, 0xAC, 0xED, 0xA0, 0x80, 0xC0, 0xF0, 0x9F] =
    ['a', '€', replacement, replacement, replacement] := by decide

theorem char_bounds (c : Char) : c.toNat < 0xD800 ∨ (0xDFFF < c.toNat ∧ c.toNat < 0x110000) := c.valid

theorem decode_utf16_char (c : Char) (rest : Units) :
    decodeUtf16 (charUnits c ++ rest) = c :: decodeUtf16 rest := by
  have scalar := char_bounds c
  by_cases basic : c.toNat < 0x10000
  · have unit : (UInt16.ofNat c.toNat).toNat = c.toNat := by simp; omega
    have notHigh : isHigh (UInt16.ofNat c.toNat) = false := by simp only [isHigh, unit]; grind
    have notLow : isLow (UInt16.ofNat c.toNat) = false := by simp only [isLow, unit]; grind
    rw [charUnits, if_pos basic, List.singleton_append, decodeUtf16.eq_def]
    simp only [notHigh, notLow, Bool.false_eq_true, if_false, unit, Char.ofNat_toNat]
  · have high : (UInt16.ofNat (0xD800 + (c.toNat - 0x10000) / 0x400)).toNat = 0xD800 + (c.toNat - 0x10000) / 0x400 := by
      simp; omega
    have low : (UInt16.ofNat (0xDC00 + (c.toNat - 0x10000) % 0x400)).toNat = 0xDC00 + (c.toNat - 0x10000) % 0x400 := by
      simp; omega
    have joined : 0x10000 + (0xD800 + (c.toNat - 0x10000) / 0x400 - 0xD800) * 0x400 +
        (0xDC00 + (c.toNat - 0x10000) % 0x400 - 0xDC00) = c.toNat := by omega
    have isPair : isHigh (UInt16.ofNat (0xD800 + (c.toNat - 0x10000) / 0x400)) = true ∧
        isLow (UInt16.ofNat (0xDC00 + (c.toNat - 0x10000) % 0x400)) = true := by
      simp only [isHigh, isLow, high, low, Bool.and_eq_true, decide_eq_true_eq]
      omega
    rw [charUnits, if_neg basic, List.cons_append, List.singleton_append, decodeUtf16.eq_def]
    simp only [isPair.1, isPair.2, if_true, high, low, joined, Char.ofNat_toNat]

theorem decode_encode_utf16 (chars : List Char) : decodeUtf16 (encodeUtf16 chars) = chars := by
  induction chars with
  | nil => rfl
  | cons c tail ih =>
      change decodeUtf16 (charUnits c ++ encodeUtf16 tail) = c :: tail
      rw [decode_utf16_char, ih]

theorem encode_utf16_append (a b : List Char) : encodeUtf16 (a ++ b) = encodeUtf16 a ++ encodeUtf16 b := by
  simp [encodeUtf16]

theorem decode_utf8_one (b1 : UInt8) (rest : Bytes) (ascii : b1.toNat < 0x80) :
    decodeUtf8 (b1 :: rest) = Char.ofNat b1.toNat :: decodeUtf8 rest := by
  rw [decodeUtf8.eq_def]
  simp only [if_pos ascii]

theorem decode_utf8_two (b1 b2 : UInt8) (rest : Bytes) (lead : 0xC2 ≤ b1.toNat ∧ b1.toNat < 0xE0)
    (second : isContinuation b2 = true) :
    decodeUtf8 (b1 :: b2 :: rest) = Char.ofNat ((b1.toNat - 0xC0) * 0x40 + (b2.toNat - 0x80)) :: decodeUtf8 rest := by
  have notAscii : ¬ b1.toNat < 0x80 := by omega
  rw [decodeUtf8.eq_def]
  simp only [if_neg notAscii, if_pos lead, if_pos second]

theorem decode_utf8_three (b1 b2 b3 : UInt8) (rest : Bytes) (code : Nat) (lead : 0xE0 ≤ b1.toNat ∧ b1.toNat < 0xF0)
    (second : malformedSecond3 b1 b2 = false) (third : isContinuation b3 = true)
    (spelled : (b1.toNat - 0xE0) * 0x1000 + (b2.toNat - 0x80) * 0x40 + (b3.toNat - 0x80) = code)
    (scalar : ¬ (0xD800 ≤ code ∧ code < 0xE000)) :
    decodeUtf8 (b1 :: b2 :: b3 :: rest) = Char.ofNat code :: decodeUtf8 rest := by
  have notAscii : ¬ b1.toNat < 0x80 := by omega
  have notTwo : ¬ (0xC2 ≤ b1.toNat ∧ b1.toNat < 0xE0) := by omega
  rw [decodeUtf8.eq_def]
  simp only [if_neg notAscii, if_neg notTwo, if_pos lead, second, Bool.false_eq_true, if_false,
    if_pos third, spelled, if_neg scalar]

theorem decode_utf8_four (b1 b2 b3 b4 : UInt8) (rest : Bytes) (lead : 0xF0 ≤ b1.toNat ∧ b1.toNat < 0xF5)
    (second : malformedSecond4 b1 b2 = false) (third : isContinuation b3 = true) (fourth : isContinuation b4 = true) :
    decodeUtf8 (b1 :: b2 :: b3 :: b4 :: rest) =
      Char.ofNat ((b1.toNat - 0xF0) * 0x40000 + (b2.toNat - 0x80) * 0x1000 +
        (b3.toNat - 0x80) * 0x40 + (b4.toNat - 0x80)) :: decodeUtf8 rest := by
  have notAscii : ¬ b1.toNat < 0x80 := by omega
  have notTwo : ¬ (0xC2 ≤ b1.toNat ∧ b1.toNat < 0xE0) := by omega
  have notThree : ¬ (0xE0 ≤ b1.toNat ∧ b1.toNat < 0xF0) := by omega
  rw [decodeUtf8.eq_def]
  simp only [if_neg notAscii, if_neg notTwo, if_neg notThree, if_pos lead, second,
    Bool.false_eq_true, if_false, if_pos third, if_pos fourth]

theorem decode_utf8_char (c : Char) (rest : Bytes) :
    decodeUtf8 (String.utf8EncodeChar c ++ rest) = c :: decodeUtf8 rest := by
  have scalar := char_bounds c
  have same : c.val.toNat = c.toNat := rfl
  -- The width of the sequence follows the four ranges of the encoder.
  by_cases one : c.toNat ≤ 0x7F
  · have byte : (UInt8.ofNat c.toNat).toNat = c.toNat := by simp; omega
    simp only [String.utf8EncodeChar, same, if_pos one, List.cons_append, List.nil_append]
    rw [decode_utf8_one _ _ (by omega), byte, Char.ofNat_toNat]
  by_cases two : c.toNat ≤ 0x7FF
  · have lead : (UInt8.ofNat (c.toNat / 64 % 32 + 192)).toNat = c.toNat / 64 + 192 := by simp; omega
    have second : (UInt8.ofNat (c.toNat % 64 + 128)).toNat = c.toNat % 64 + 128 := by simp; omega
    simp only [String.utf8EncodeChar, same, if_neg one, if_pos two, List.cons_append, List.nil_append]
    rw [decode_utf8_two _ _ _ (by omega) (by simp only [isContinuation, second]; grind), lead, second]
    rw [show (c.toNat / 64 + 192 - 0xC0) * 0x40 + (c.toNat % 64 + 128 - 0x80) = c.toNat by omega, Char.ofNat_toNat]
  by_cases three : c.toNat ≤ 0xFFFF
  · have lead : (UInt8.ofNat (c.toNat / 4096 % 16 + 224)).toNat = c.toNat / 4096 + 224 := by simp; omega
    have second : (UInt8.ofNat (c.toNat / 64 % 64 + 128)).toNat = c.toNat / 64 % 64 + 128 := by simp; omega
    have third : (UInt8.ofNat (c.toNat % 64 + 128)).toNat = c.toNat % 64 + 128 := by simp; omega
    simp only [String.utf8EncodeChar, same, if_neg one, if_neg two, if_pos three, List.cons_append, List.nil_append]
    rw [decode_utf8_three _ _ _ _ c.toNat (by omega) (by simp only [malformedSecond3, isContinuation, lead, second]; grind)
      (by simp only [isContinuation, third]; grind) (by omega) (by omega), Char.ofNat_toNat]
  · have lead : (UInt8.ofNat (c.toNat / 262144 % 8 + 240)).toNat = c.toNat / 262144 + 240 := by simp; omega
    have second : (UInt8.ofNat (c.toNat / 4096 % 64 + 128)).toNat = c.toNat / 4096 % 64 + 128 := by simp; omega
    have third : (UInt8.ofNat (c.toNat / 64 % 64 + 128)).toNat = c.toNat / 64 % 64 + 128 := by simp; omega
    have fourth : (UInt8.ofNat (c.toNat % 64 + 128)).toNat = c.toNat % 64 + 128 := by simp; omega
    simp only [String.utf8EncodeChar, same, if_neg one, if_neg two, if_neg three, List.cons_append, List.nil_append]
    rw [decode_utf8_four _ _ _ _ _ (by omega) (by simp only [malformedSecond4, isContinuation, lead, second]; grind)
      (by simp only [isContinuation, third]; grind) (by simp only [isContinuation, fourth]; grind), lead, second, third, fourth]
    rw [show (c.toNat / 262144 + 240 - 0xF0) * 0x40000 + (c.toNat / 4096 % 64 + 128 - 0x80) * 0x1000 +
      (c.toNat / 64 % 64 + 128 - 0x80) * 0x40 + (c.toNat % 64 + 128 - 0x80) = c.toNat by omega, Char.ofNat_toNat]

theorem decode_encode_utf8_append (chars : List Char) (rest : Bytes) :
    decodeUtf8 (encodeUtf8 chars ++ rest) = chars ++ decodeUtf8 rest := by
  induction chars with
  | nil => rfl
  | cons c tail ih =>
      change decodeUtf8 ((String.utf8EncodeChar c ++ encodeUtf8 tail) ++ rest) = c :: (tail ++ decodeUtf8 rest)
      rw [List.append_assoc, decode_utf8_char, ih]

theorem decode_encode_utf8 (chars : List Char) : decodeUtf8 (encodeUtf8 chars) = chars := by
  simpa [decodeUtf8] using decode_encode_utf8_append chars []

theorem char_of_code (code : Nat) (scalar : code < 0xD800 ∨ (0xDFFF < code ∧ code < 0x110000)) :
    (Char.ofNat code).toNat = code := by
  rw [Char.ofNat, dif_pos scalar]
  rfl

theorem continuation_bounds (byte : UInt8) (tail : isContinuation byte = true) : 0x80 ≤ byte.toNat ∧ byte.toNat < 0xC0 := by
  simpa [isContinuation] using tail

theorem second_of_three_bounds (b1 b2 : UInt8) (formed : malformedSecond3 b1 b2 = false) :
    0x80 ≤ b2.toNat ∧ b2.toNat < 0xC0 ∧ (b1.toNat = 0xE0 → 0xA0 ≤ b2.toNat) := by
  simp only [malformedSecond3, Bool.or_eq_false_iff, Bool.not_eq_false'] at formed
  have bounds := continuation_bounds b2 formed.2
  refine ⟨bounds.1, bounds.2, fun first => ?_⟩
  simpa [first] using formed.1

theorem second_of_four_bounds (b1 b2 : UInt8) (formed : malformedSecond4 b1 b2 = false) :
    0x80 ≤ b2.toNat ∧ b2.toNat < 0xC0 ∧ (b1.toNat = 0xF0 → 0x90 ≤ b2.toNat) ∧ (b1.toNat = 0xF4 → b2.toNat < 0x90) := by
  simp only [malformedSecond4, Bool.or_eq_false_iff, Bool.not_eq_false'] at formed
  have bounds := continuation_bounds b2 formed.2
  refine ⟨bounds.1, bounds.2, fun first => ?_, fun last => ?_⟩
  · simpa [first] using formed.1.1
  · simpa [last] using formed.1.2

-- The bytes that a byte above ASCII takes with it are above ASCII too.
def ReadsWide (rest : Bytes) (chars : List Char) : Prop :=
  ∃ c skipped left, chars = c :: decodeUtf8 left ∧ 0x80 ≤ c.toNat ∧ rest = skipped ++ left ∧ ∀ byte ∈ skipped, 0x80 ≤ byte.toNat

theorem replacement_wide (skipped left : Bytes) (wide : ∀ byte ∈ skipped, 0x80 ≤ byte.toNat) :
    ReadsWide (skipped ++ left) (replacement :: decodeUtf8 left) :=
  ⟨replacement, skipped, left, rfl, by decide, rfl, wide⟩

theorem code_wide (code : Nat) (skipped left : Bytes) (large : 0x80 ≤ code)
    (scalar : code < 0xD800 ∨ (0xDFFF < code ∧ code < 0x110000)) (wide : ∀ byte ∈ skipped, 0x80 ≤ byte.toNat) :
    ReadsWide (skipped ++ left) (Char.ofNat code :: decodeUtf8 left) :=
  ⟨Char.ofNat code, skipped, left, rfl, by rw [char_of_code code scalar]; exact large, rfl, wide⟩

theorem decode_utf8_wide_two (b1 : UInt8) (rest : Bytes) (lead : 0xC2 ≤ b1.toNat ∧ b1.toNat < 0xE0) :
    ReadsWide rest (decodeUtf8 (b1 :: rest)) := by
  have notAscii : ¬ b1.toNat < 0x80 := by omega
  rw [decodeUtf8.eq_def]
  simp only [if_neg notAscii, if_pos lead]
  split
  · exact replacement_wide [] [] (by simp)
  · split
    · rename_i b2 rest2 second
      have tail := continuation_bounds b2 second
      exact code_wide _ [b2] _ (by omega) (by omega) (by simpa using tail.1)
    · exact replacement_wide [] _ (by simp)

theorem decode_utf8_wide_three (b1 : UInt8) (rest : Bytes) (lead : 0xE0 ≤ b1.toNat ∧ b1.toNat < 0xF0) :
    ReadsWide rest (decodeUtf8 (b1 :: rest)) := by
  have notAscii : ¬ b1.toNat < 0x80 := by omega
  have notTwo : ¬ (0xC2 ≤ b1.toNat ∧ b1.toNat < 0xE0) := by omega
  rw [decodeUtf8.eq_def]
  simp only [if_neg notAscii, if_neg notTwo, if_pos lead]
  split
  · exact replacement_wide [] [] (by simp)
  · split
    · exact replacement_wide [] _ (by simp)
    · rename_i b2 rest2 formed
      have second := second_of_three_bounds b1 b2 (by simpa using formed)
      split
      · exact replacement_wide [b2] [] (by simpa using second.1)
      · split
        · rename_i b3 rest3 third
          have tail := continuation_bounds b3 third
          split
          · exact replacement_wide [b2, b3] _ (by simpa using ⟨second.1, tail.1⟩)
          · exact code_wide _ [b2, b3] _ (by omega) (by omega) (by simpa using ⟨second.1, tail.1⟩)
        · exact replacement_wide [b2] _ (by simpa using second.1)

theorem decode_utf8_wide_four (b1 : UInt8) (rest : Bytes) (lead : 0xF0 ≤ b1.toNat ∧ b1.toNat < 0xF5) :
    ReadsWide rest (decodeUtf8 (b1 :: rest)) := by
  have notAscii : ¬ b1.toNat < 0x80 := by omega
  have notTwo : ¬ (0xC2 ≤ b1.toNat ∧ b1.toNat < 0xE0) := by omega
  have notThree : ¬ (0xE0 ≤ b1.toNat ∧ b1.toNat < 0xF0) := by omega
  rw [decodeUtf8.eq_def]
  simp only [if_neg notAscii, if_neg notTwo, if_neg notThree, if_pos lead]
  split
  · exact replacement_wide [] [] (by simp)
  · split
    · exact replacement_wide [] _ (by simp)
    · rename_i b2 rest2 formed
      have second := second_of_four_bounds b1 b2 (by simpa using formed)
      split
      · exact replacement_wide [b2] [] (by simpa using second.1)
      · split
        · rename_i b3 rest3 third
          have tail := continuation_bounds b3 third
          split
          · exact replacement_wide [b2, b3] [] (by simpa using ⟨second.1, tail.1⟩)
          · split
            · rename_i b4 rest4 fourth
              have last := continuation_bounds b4 fourth
              exact code_wide _ [b2, b3, b4] _ (by omega) (by omega) (by simpa using ⟨second.1, tail.1, last.1⟩)
            · exact replacement_wide [b2, b3] _ (by simpa using ⟨second.1, tail.1⟩)
        · exact replacement_wide [b2] _ (by simpa using second.1)

-- Only an ASCII byte decodes to an ASCII character, so ASCII text can be looked
-- for in the bytes instead of the decoded string.
theorem decode_utf8_wide (b1 : UInt8) (rest : Bytes) (wide : ¬ b1.toNat < 0x80) : ReadsWide rest (decodeUtf8 (b1 :: rest)) := by
  by_cases two : 0xC2 ≤ b1.toNat ∧ b1.toNat < 0xE0
  · exact decode_utf8_wide_two b1 rest two
  by_cases three : 0xE0 ≤ b1.toNat ∧ b1.toNat < 0xF0
  · exact decode_utf8_wide_three b1 rest three
  by_cases four : 0xF0 ≤ b1.toNat ∧ b1.toNat < 0xF5
  · exact decode_utf8_wide_four b1 rest four
  · rw [decodeUtf8.eq_def]
    simp only [if_neg wide, if_neg two, if_neg three, if_neg four]
    exact replacement_wide [] _ (by simp)

theorem decode_utf8_ascii_mem (c : Char) (bytes : Bytes) (ascii : c.toNat < 0x80) :
    c ∈ decodeUtf8 bytes ↔ UInt8.ofNat c.toNat ∈ bytes := by
  have byte : (UInt8.ofNat c.toNat).toNat = c.toNat := by simp; omega
  -- On the length: a wide byte takes up to three more with it.
  induction size : bytes.length using Nat.strong_induction_on generalizing bytes with
  | _ n ih =>
      cases bytes with
      | nil => simp [decodeUtf8]
      | cons b1 rest =>
          rw [List.length_cons] at size
          by_cases narrow : b1.toNat < 0x80
          · have same : c = Char.ofNat b1.toNat ↔ UInt8.ofNat c.toNat = b1 := by
              rw [← Char.toNat_inj, char_of_code _ (by omega), ← UInt8.toNat_inj, byte]
            have later : c ∈ decodeUtf8 rest ↔ UInt8.ofNat c.toNat ∈ rest := ih rest.length (by omega) rest rfl
            rw [decode_utf8_one b1 rest narrow, List.mem_cons, List.mem_cons, same, later]
          · obtain ⟨w, skipped, left, decoded, wide, split, wides⟩ := decode_utf8_wide b1 rest narrow
            have first : UInt8.ofNat c.toNat ≠ b1 := by
              rintro rfl
              omega
            have char : c ≠ w := by
              rintro rfl
              omega
            have absent : UInt8.ofNat c.toNat ∉ skipped := by
              intro member
              have bound := wides _ member
              omega
            rw [split, List.length_append] at size
            have later : c ∈ decodeUtf8 left ↔ UInt8.ofNat c.toNat ∈ left := ih left.length (by omega) left rfl
            rw [decoded, split, List.mem_cons, List.mem_cons, List.mem_append, later]
            simp [first, char, absent]

theorem decode_utf8_ascii_head (c : Char) (tail : List Char) (bytes : Bytes) (ascii : c.toNat < 0x80)
    (decoded : decodeUtf8 bytes = c :: tail) :
    ∃ rest, bytes = UInt8.ofNat c.toNat :: rest ∧ decodeUtf8 rest = tail := by
  cases bytes with
  | nil => simp [decodeUtf8] at decoded
  | cons b1 rest =>
      by_cases narrow : b1.toNat < 0x80
      · rw [decode_utf8_one b1 rest narrow] at decoded
        obtain ⟨headEq, tailEq⟩ := List.cons.inj decoded
        refine ⟨rest, ?_, tailEq⟩
        rw [← headEq, char_of_code _ (by omega), UInt8.ofNat_toNat]
      · obtain ⟨d, _, _, wideEq, wide, _⟩ := decode_utf8_wide b1 rest narrow
        rw [decoded] at wideEq
        obtain ⟨rfl, _⟩ := List.cons.inj wideEq
        omega

def asciiBytes (text : List Char) : Bytes := text.map fun c => UInt8.ofNat c.toNat

theorem decode_utf8_ascii_append (text : List Char) (rest : Bytes) (ascii : ∀ c ∈ text, c.toNat < 0x80) :
    decodeUtf8 (asciiBytes text ++ rest) = text ++ decodeUtf8 rest := by
  induction text with
  | nil => rfl
  | cons c tail ih =>
      have narrow := ascii c (by simp)
      have byte : (UInt8.ofNat c.toNat).toNat = c.toNat := by simp; omega
      change decodeUtf8 (UInt8.ofNat c.toNat :: (asciiBytes tail ++ rest)) = c :: (tail ++ decodeUtf8 rest)
      rw [decode_utf8_one _ _ (by omega), byte, Char.ofNat_toNat, ih (fun d member => ascii d (by simp [member]))]

theorem decode_utf8_ascii_prefix (text : List Char) (bytes : Bytes) (ascii : ∀ c ∈ text, c.toNat < 0x80) :
    text <+: decodeUtf8 bytes ↔ asciiBytes text <+: bytes := by
  constructor
  · induction text generalizing bytes with
    | nil => exact fun _ => List.nil_prefix
    | cons c tail ih =>
        rintro ⟨suffix, decoded⟩
        obtain ⟨rest, bytesEq, restEq⟩ := decode_utf8_ascii_head c (tail ++ suffix) bytes (ascii c (by simp)) decoded.symm
        subst bytesEq
        exact List.cons_prefix_cons.mpr ⟨rfl, ih rest (fun d member => ascii d (by simp [member])) ⟨suffix, restEq.symm⟩⟩
  · rintro ⟨suffix, rfl⟩
    rw [decode_utf8_ascii_append text suffix ascii]
    exact List.prefix_append _ _

theorem encode_utf16_ascii_head (u : UInt16) (tail : Units) (chars : List Char) (ascii : u.toNat < 0x80)
    (encoded : encodeUtf16 chars = u :: tail) :
    ∃ rest, chars = Char.ofNat u.toNat :: rest ∧ encodeUtf16 rest = tail := by
  cases chars with
  | nil => simp [encodeUtf16] at encoded
  | cons c rest =>
      change charUnits c ++ encodeUtf16 rest = u :: tail at encoded
      by_cases basic : c.toNat < 0x10000
      · rw [charUnits, if_pos basic, List.singleton_append] at encoded
        obtain ⟨rfl, tailEq⟩ := List.cons.inj encoded
        have unit : (UInt16.ofNat c.toNat).toNat = c.toNat := by simp; omega
        exact ⟨rest, by rw [unit, Char.ofNat_toNat], tailEq⟩
      · rw [charUnits, if_neg basic] at encoded
        obtain ⟨rfl, _⟩ := List.cons.inj encoded
        have high : (UInt16.ofNat (0xD800 + (c.toNat - 0x10000) / 0x400)).toNat =
            (0xD800 + (c.toNat - 0x10000) / 0x400) % 0x10000 := by simp
        have scalar := char_bounds c
        omega

theorem encode_utf16_ascii_prefix (text chars : List Char) (ascii : ∀ c ∈ text, c.toNat < 0x80) :
    encodeUtf16 text <+: encodeUtf16 chars ↔ text <+: chars := by
  constructor
  · induction text generalizing chars with
    | nil => exact fun _ => List.nil_prefix
    | cons c tail ih =>
        rintro ⟨suffix, encoded⟩
        have narrow := ascii c (by simp)
        have unit : (UInt16.ofNat c.toNat).toNat = c.toNat := by simp; omega
        have first : encodeUtf16 chars = UInt16.ofNat c.toNat :: (encodeUtf16 tail ++ suffix) := by
          have basic : c.toNat < 0x10000 := by omega
          rw [← encoded]
          simp [encodeUtf16, charUnits, basic]
        obtain ⟨rest, charsEq, restEq⟩ := encode_utf16_ascii_head _ _ chars (by omega) first
        subst charsEq
        rw [unit, Char.ofNat_toNat]
        exact List.cons_prefix_cons.mpr
          ⟨rfl, ih rest (fun d member => ascii d (by simp [member])) ⟨suffix, restEq.symm⟩⟩
  · rintro ⟨suffix, rfl⟩
    rw [encode_utf16_append]
    exact List.prefix_append _ _

theorem char_units_ascii_mem (c : Char) (u : UInt16) (ascii : u.toNat < 0x80) :
    u ∈ charUnits c ↔ c = Char.ofNat u.toNat := by
  have scalar := char_bounds c
  rw [← Char.toNat_inj, char_of_code _ (by omega)]
  by_cases basic : c.toNat < 0x10000
  · have unit : (UInt16.ofNat c.toNat).toNat = c.toNat := by simp; omega
    rw [charUnits, if_pos basic, List.mem_singleton, ← UInt16.toNat_inj, unit]
    exact eq_comm
  · have high : (UInt16.ofNat (0xD800 + (c.toNat - 0x10000) / 0x400)).toNat = 0xD800 + (c.toNat - 0x10000) / 0x400 := by
      simp; omega
    have low : (UInt16.ofNat (0xDC00 + (c.toNat - 0x10000) % 0x400)).toNat = 0xDC00 + (c.toNat - 0x10000) % 0x400 := by
      simp; omega
    rw [charUnits, if_neg basic, List.mem_cons, List.mem_singleton, ← UInt16.toNat_inj, ← UInt16.toNat_inj, high, low]
    omega

theorem encode_utf16_ascii_mem (u : UInt16) (chars : List Char) (ascii : u.toNat < 0x80) :
    u ∈ encodeUtf16 chars ↔ Char.ofNat u.toNat ∈ chars := by
  rw [encodeUtf16, List.mem_flatMap]
  simp only [char_units_ascii_mem _ u ascii, exists_eq_right]

theorem char_widths (c : Char) :
    (charUnits c).length ≤ (String.utf8EncodeChar c).length ∧
      (String.utf8EncodeChar c).length ≤ 3 * (charUnits c).length ∧
      ((charUnits c).length = (String.utf8EncodeChar c).length ↔ c.toNat < 0x80) := by
  have same : c.val.toNat = c.toNat := rfl
  have units : (charUnits c).length = if c.toNat < 0x10000 then 1 else 2 := by
    rw [charUnits]
    split
    · rfl
    · rfl
  have bytes : (String.utf8EncodeChar c).length =
      if c.toNat ≤ 0x7F then 1 else if c.toNat ≤ 0x7FF then 2 else if c.toNat ≤ 0xFFFF then 3 else 4 := by
    simp only [String.utf8EncodeChar, same]
    repeat' split
    all_goals rfl
  rw [units, bytes]
  grind

theorem encode_utf8_cons_length (c : Char) (tail : List Char) :
    (encodeUtf8 (c :: tail)).length = (String.utf8EncodeChar c).length + (encodeUtf8 tail).length := List.length_append

theorem encode_utf16_cons_length (c : Char) (tail : List Char) :
    (encodeUtf16 (c :: tail)).length = (charUnits c).length + (encodeUtf16 tail).length := List.length_append

theorem encode_utf8_length (chars : List Char) : (encodeUtf8 chars).length ≤ 3 * (encodeUtf16 chars).length := by
  induction chars with
  | nil => simp [encodeUtf8]
  | cons c tail ih =>
      have char := (char_widths c).2.1
      rw [encode_utf8_cons_length, encode_utf16_cons_length]
      omega

theorem encode_utf16_length (chars : List Char) : (encodeUtf16 chars).length ≤ (encodeUtf8 chars).length := by
  induction chars with
  | nil => simp [encodeUtf16]
  | cons c tail ih =>
      have char := (char_widths c).1
      rw [encode_utf8_cons_length, encode_utf16_cons_length]
      omega

-- One unit for one byte: the two encodings measure ASCII alike and nothing else.
theorem encode_same_length (chars : List Char) :
    (encodeUtf16 chars).length = (encodeUtf8 chars).length ↔ ∀ c ∈ chars, c.toNat < 0x80 := by
  induction chars with
  | nil => simp [encodeUtf8, encodeUtf16]
  | cons c tail ih =>
      have char := char_widths c
      have longer := encode_utf16_length tail
      rw [encode_utf8_cons_length, encode_utf16_cons_length, List.forall_mem_cons, ← ih, ← char.2.2]
      omega

theorem char_units_narrow (c : Char) (basic : c.toNat < 0x10000) : (charUnits c).length = 1 := by
  rw [charUnits, if_pos basic]
  rfl

-- An unpaired surrogate is one unit, and so is the question mark put for it.
theorem encode_decode_utf16_length (units : Units) : (encodeUtf16 (decodeUtf16 units)).length = units.length := by
  fun_induction decodeUtf16 units with
  | case1 => rfl
  | case2 unit high => rfl
  | case3 unit high low tail paired ih =>
      have lead : 0xD800 ≤ unit.toNat ∧ unit.toNat < 0xDC00 := by simpa [isHigh] using high
      have trail : 0xDC00 ≤ low.toNat ∧ low.toNat < 0xE000 := by simpa [isLow] using paired
      have code : (Char.ofNat (0x10000 + (unit.toNat - 0xD800) * 0x400 + (low.toNat - 0xDC00))).toNat =
          0x10000 + (unit.toNat - 0xD800) * 0x400 + (low.toNat - 0xDC00) := char_of_code _ (by omega)
      rw [encode_utf16_cons_length, ih, charUnits, code, if_neg (by omega)]
      simp only [List.length_cons, List.length_nil]
      omega
  | case4 unit high low tail unpaired ih =>
      rw [encode_utf16_cons_length, ih, char_units_narrow _ (by decide), Nat.add_comm, ← List.length_cons]
  | case5 unit rest notHigh low ih =>
      rw [encode_utf16_cons_length, ih, char_units_narrow _ (by decide), Nat.add_comm, List.length_cons]
  | case6 unit rest notHigh notLow ih =>
      have scalar : unit.toNat < 0xD800 ∨ (0xDFFF < unit.toNat ∧ unit.toNat < 0x110000) := by
        have bound := unit.toNat_lt
        simp only [isHigh, isLow] at notHigh notLow
        grind
      have basic : (Char.ofNat unit.toNat).toNat < 0x10000 := by
        rw [char_of_code _ scalar]
        exact unit.toNat_lt
      rw [encode_utf16_cons_length, ih, char_units_narrow _ basic, Nat.add_comm, List.length_cons]

theorem char_units_pair (high low : UInt16) (lead : 0xD800 ≤ high.toNat ∧ high.toNat < 0xDC00)
    (trail : 0xDC00 ≤ low.toNat ∧ low.toNat < 0xE000) :
    charUnits (Char.ofNat (0x10000 + (high.toNat - 0xD800) * 0x400 + (low.toNat - 0xDC00))) = [high, low] := by
  have code : (Char.ofNat (0x10000 + (high.toNat - 0xD800) * 0x400 + (low.toNat - 0xDC00))).toNat =
      0x10000 + (high.toNat - 0xD800) * 0x400 + (low.toNat - 0xDC00) := char_of_code _ (by omega)
  have first : 0xD800 + (0x10000 + (high.toNat - 0xD800) * 0x400 + (low.toNat - 0xDC00) - 0x10000) / 0x400 = high.toNat := by
    omega
  have second : 0xDC00 + (0x10000 + (high.toNat - 0xD800) * 0x400 + (low.toNat - 0xDC00) - 0x10000) % 0x400 = low.toNat := by
    omega
  rw [charUnits, code, if_neg (by omega), first, second, UInt16.ofNat_toNat, UInt16.ofNat_toNat]

-- Where no question mark stands nothing has been replaced.
theorem encode_decode_utf16 (units : Units) (plain : '?' ∉ decodeUtf16 units) : encodeUtf16 (decodeUtf16 units) = units := by
  fun_induction decodeUtf16 units with
  | case1 => rfl
  | case2 unit high => simp at plain
  | case3 unit high low tail paired ih =>
      have lead : 0xD800 ≤ unit.toNat ∧ unit.toNat < 0xDC00 := by simpa [isHigh] using high
      have trail : 0xDC00 ≤ low.toNat ∧ low.toNat < 0xE000 := by simpa [isLow] using paired
      rw [encodeUtf16, List.flatMap_cons, char_units_pair unit low lead trail, ← encodeUtf16,
        ih (List.not_mem_of_not_mem_cons plain)]
      rfl
  | case4 unit high low tail unpaired ih => simp at plain
  | case5 unit rest notHigh low ih => simp at plain
  | case6 unit rest notHigh notLow ih =>
      have scalar : unit.toNat < 0xD800 ∨ (0xDFFF < unit.toNat ∧ unit.toNat < 0x110000) := by
        have bound := unit.toNat_lt
        simp only [isHigh, isLow] at notHigh notLow
        grind
      have code := char_of_code _ scalar
      rw [encodeUtf16, List.flatMap_cons, charUnits, code, if_pos unit.toNat_lt, UInt16.ofNat_toNat, ← encodeUtf16,
        ih (List.not_mem_of_not_mem_cons plain)]
      rfl

end Unicode
