import Mathlib.Algebra.Group.Nat.Hom
import Mathlib.Data.List.DropRight

/-!
# Strings, bytes and machine sizes

The operations of the standard library on `str`, `String` and `usize` that the
crate uses.  A Rust string is a sequence of Unicode scalar values stored as
UTF-8, which is what `String` is; a byte buffer is a list of bytes.
-/

namespace McpCore
namespace Text

/-- `usize::MAX` on the 64-bit targets the crate is built for. -/
def usizeMax : Nat := 2 ^ 64 - 1

/-- A value of type `usize`. -/
abbrev Usize := Fin (2 ^ 64)

theorem eq_usizeMax_of_not_lt {n : Usize} (h : ¬ n.val < usizeMax) :
    n.val = usizeMax := by
  have := n.isLt
  simp only [usizeMax] at h ⊢
  omega

/-- The byte of `'\n'`. -/
def lineFeed : UInt8 := 10

section Utf8

/-- `str::as_bytes`: the UTF-8 encoding. -/
def asBytes (s : String) : List UInt8 :=
  s.toByteArray.data.toList

/-- The string these bytes encode, if they are UTF-8. -/
def decodeUtf8 (bytes : List UInt8) : Option String :=
  String.fromUTF8? ⟨bytes.toArray⟩

@[simp] theorem decodeUtf8_asBytes (s : String) :
    decodeUtf8 (asBytes s) = some s := by
  have hvalid : s.toByteArray.IsValidUTF8 := s.isValidUTF8
  simp [decodeUtf8, asBytes, String.fromUTF8?, String.fromUTF8, hvalid]

theorem decodeUtf8_eq_some_iff {bytes : List UInt8} {s : String} :
    decodeUtf8 bytes = some s ↔ bytes = asBytes s := by
  constructor
  · intro h
    unfold decodeUtf8 String.fromUTF8? at h
    split at h
    · cases h
      rfl
    · cases h
  · rintro rfl
    exact decodeUtf8_asBytes s

theorem asBytes_eq_flatMap (s : String) :
    asBytes s = s.toList.flatMap String.utf8EncodeChar := by
  unfold asBytes
  rw [← String.utf8Encode_toList]
  simp [List.utf8Encode]

@[simp] theorem asBytes_append (s t : String) :
    asBytes (s ++ t) = asBytes s ++ asBytes t := by
  simp [asBytes_eq_flatMap]

/-- An ASCII byte only ever encodes the character with its own number. -/
theorem mem_utf8EncodeChar_ascii
    {a : Char} (ha : a.toNat < 128) (c : Char) :
    UInt8.ofNat a.toNat ∈ String.utf8EncodeChar c ↔ c = a := by
  have hc : c.toNat < 4294967296 := c.val.toNat_lt
  have heq : c = a ↔ c.toNat = a.toNat :=
    ⟨fun h => by rw [h], Char.toNat_inj.mp⟩
  rw [heq]
  unfold String.utf8EncodeChar
  change _ ∈ (if c.toNat ≤ 127 then _ else _) ↔ _
  split
  · simp [← UInt8.toNat_inj]
    omega
  · split
    · simp [← UInt8.toNat_inj]
      omega
    · split
      · simp [← UInt8.toNat_inj]
        omega
      · simp [← UInt8.toNat_inj]
        omega

theorem mem_asBytes_ascii
    {a : Char} (ha : a.toNat < 128) (s : String) :
    UInt8.ofNat a.toNat ∈ asBytes s ↔ a ∈ s.toList := by
  rw [asBytes_eq_flatMap, List.mem_flatMap]
  constructor
  · rintro ⟨c, hc, hac⟩
    rw [mem_utf8EncodeChar_ascii ha] at hac
    subst c
    exact hc
  · intro h
    exact ⟨a, h, (mem_utf8EncodeChar_ascii ha a).2 rfl⟩

theorem lineFeed_mem_asBytes (s : String) :
    lineFeed ∈ asBytes s ↔ '\n' ∈ s.toList :=
  mem_asBytes_ascii (a := '\n') (by decide) s

/-- `Utf8Error`: how much was valid, and how long the invalid sequence is
(`none` when the input ends inside a sequence that could still be completed). -/
structure Utf8Error where
  validUpTo : Nat
  errorLen : Option Nat
deriving DecidableEq

/-- The `Display` of a `Utf8Error`. -/
def Utf8Error.display (e : Utf8Error) : String :=
  match e.errorLen with
  | some n =>
      s!"invalid utf-8 sequence of {n} bytes from index {e.validUpTo}"
  | none =>
      s!"incomplete utf-8 byte sequence from index {e.validUpTo}"

/-- `0x80..=0xBF`. -/
def isContinuation (b : UInt8) : Bool :=
  0x80 ≤ b && b ≤ 0xBF

/-- The second bytes a three-byte sequence opened by `first` may go on with. -/
def isSecondOfThree (first second : UInt8) : Bool :=
  (first == 0xE0 && 0xA0 ≤ second && second ≤ 0xBF) ||
  (0xE1 ≤ first && first ≤ 0xEC && isContinuation second) ||
  (first == 0xED && 0x80 ≤ second && second ≤ 0x9F) ||
  (0xEE ≤ first && first ≤ 0xEF && isContinuation second)

/-- The second bytes a four-byte sequence opened by `first` may go on with. -/
def isSecondOfFour (first second : UInt8) : Bool :=
  (first == 0xF0 && 0x90 ≤ second && second ≤ 0xBF) ||
  (0xF1 ≤ first && first ≤ 0xF3 && isContinuation second) ||
  (first == 0xF4 && 0x80 ≤ second && second ≤ 0x8F)

/-- The width of the sequence at the head of the input, or what is wrong with
it: the length of the invalid part, `none` when the input stops short. -/
def sequenceWidth : List UInt8 → Except (Option Nat) Nat
  | [] => .error none
  | a :: rest =>
      if a < 0x80 then .ok 1
      else if 0xC2 ≤ a && a ≤ 0xDF then
        match rest with
        | [] => .error none
        | b :: _ => if isContinuation b then .ok 2 else .error (some 1)
      else if 0xE0 ≤ a && a ≤ 0xEF then
        match rest with
        | [] => .error none
        | b :: rest =>
            if !isSecondOfThree a b then .error (some 1)
            else match rest with
              | [] => .error none
              | c :: _ => if isContinuation c then .ok 3 else .error (some 2)
      else if 0xF0 ≤ a && a ≤ 0xF4 then
        match rest with
        | [] => .error none
        | b :: rest =>
            if !isSecondOfFour a b then .error (some 1)
            else match rest with
              | [] => .error none
              | c :: rest =>
                  if !isContinuation c then .error (some 2)
                  else match rest with
                    | [] => .error none
                    | d :: _ => if isContinuation d then .ok 4 else .error (some 3)
      else .error (some 1)

/-- Where `run_utf8_validation` stops in bytes that are not UTF-8.  Every
sequence is at least one byte wide, so `fuel` is the number of bytes left. -/
def utf8Error : (fuel index : Nat) → List UInt8 → Utf8Error
  | 0, index, _ => ⟨index, none⟩
  | fuel + 1, index, bytes =>
      match sequenceWidth bytes with
      | .ok width => utf8Error fuel (index + width) (bytes.drop width)
      | .error len => ⟨index, len⟩

/-- `String::from_utf8`. -/
def fromUtf8 (bytes : List UInt8) : Except Utf8Error String :=
  match decodeUtf8 bytes with
  | some s => .ok s
  | none => .error (utf8Error bytes.length 0 bytes)

end Utf8

section Trimming

/-- `char::is_whitespace`: the Unicode property `White_Space`. -/
def isWhitespace (c : Char) : Bool :=
  let n := c.toNat
  (0x09 ≤ n && n ≤ 0x0D) || n == 0x20 || n == 0x85 || n == 0xA0 || n == 0x1680 ||
    (0x2000 ≤ n && n ≤ 0x200A) || n == 0x2028 || n == 0x2029 || n == 0x202F ||
    n == 0x205F || n == 0x3000

/-- `str::trim_end_matches` for a set of characters. -/
def trimEndMatches (s : String) (p : Char → Bool) : String :=
  String.ofList (s.toList.rdropWhile p)

/-- `str::trim`. -/
def trim (s : String) : String :=
  String.ofList ((s.toList.dropWhile isWhitespace).rdropWhile isWhitespace)

@[simp] theorem toList_trimEndMatches (s : String) (p : Char → Bool) :
    (trimEndMatches s p).toList = s.toList.rdropWhile p := by
  simp [trimEndMatches]

/-- Trimming leaves nothing of a string of white space, and of no other. -/
theorem trim_eq_empty_iff (s : String) :
    trim s = "" ↔ ∀ c ∈ s.toList, isWhitespace c = true := by
  have hempty : trim s = "" ↔ (trim s).toList = [] := by
    rw [← String.toList_inj]
    simp
  rw [hempty, trim, String.toList_ofList, List.rdropWhile_eq_nil_iff]
  constructor
  · intro h
    -- what is left of the front trim starts with a character that is not trimmed
    rcases hleft : s.toList.dropWhile isWhitespace with _ | ⟨c, cs⟩
    · exact List.dropWhile_eq_nil_iff.mp hleft
    · have hc := List.head_dropWhile_not isWhitespace (l := s.toList) (by simp [hleft])
      simp only [hleft, List.head_cons] at hc
      rw [h c (by simp [hleft])] at hc
      cases hc
  · intro h c hc
    exact h c ((List.dropWhile_sublist _).subset hc)

theorem rdropWhile_dropWhile_rdropWhile {α : Type} {p q : α → Bool}
    (hq : ∀ a, q a = true → p a = true) (l : List α) :
    ((l.rdropWhile q).dropWhile p).rdropWhile p = (l.dropWhile p).rdropWhile p := by
  induction l using List.reverseRecOn with
  | nil =>
      rfl
  | append_singleton l a ih =>
      by_cases ha : q a = true
      · rw [List.rdropWhile_concat_pos _ _ _ ha, ih, List.dropWhile_append]
        split
        · rename_i hempty
          rw [List.isEmpty_iff.mp hempty, List.dropWhile_cons_of_pos (hq a ha)]
          rfl
        · rw [List.rdropWhile_concat_pos _ _ _ (hq a ha)]
      · rw [List.rdropWhile_concat_neg _ _ _ ha]

/-- `trim` also trims what `trim_end_matches` trims of white space. -/
theorem trim_trimEndMatches {p : Char → Bool} (hp : ∀ c, p c = true → isWhitespace c = true)
    (s : String) :
    trim (trimEndMatches s p) = trim s := by
  rw [trim, toList_trimEndMatches, rdropWhile_dropWhile_rdropWhile hp, trim]

/-- Trimming the end keeps a first character that is not trimmed. -/
theorem head?_rdropWhile
    {p : Char → Bool} {cs : List Char} {c : Char}
    (h : cs.head? = some c) (hc : p c = false) :
    (cs.rdropWhile p).head? = some c := by
  obtain ⟨rest, hrest⟩ := List.rdropWhile_prefix p cs
  cases hleft : cs.rdropWhile p with
  | nil =>
      rw [List.rdropWhile_eq_nil_iff] at hleft
      rw [hleft c (List.mem_of_head? h)] at hc
      cases hc
  | cons d ds =>
      rw [hleft] at hrest
      subst cs
      exact h

theorem head?_trim
    {s : String} {c : Char} (h : s.toList.head? = some c) (hc : isWhitespace c = false) :
    (trim s).toList.head? = some c := by
  have hfront : s.toList.dropWhile isWhitespace = s.toList := by
    obtain ⟨cs, hcs⟩ := List.head?_eq_some_iff.mp h
    rw [hcs, List.dropWhile_cons_of_neg (by simp [hc])]
  rw [trim, hfront, String.toList_ofList]
  exact head?_rdropWhile h hc

end Trimming

section Splitting

/-- `str::split_once`: around the first `c`, or `None` without one. -/
def splitOnce (s : String) (c : Char) : Option (String × String) :=
  if c ∈ s.toList then
    some (String.ofList (s.toList.takeWhile (· != c)),
      String.ofList ((s.toList.dropWhile (· != c)).drop 1))
  else none

theorem splitOnce_eq_some_iff {s before after : String} {c : Char} :
    splitOnce s c = some (before, after) ↔
      c ∉ before.toList ∧ s.toList = before.toList ++ c :: after.toList := by
  unfold splitOnce
  constructor
  · intro h
    split at h
    · rename_i hmem
      simp only [Option.some.injEq, Prod.mk.injEq] at h
      obtain ⟨rfl, rfl⟩ := h
      have hbefore : c ∉ s.toList.takeWhile (· != c) := by
        intro hc
        simpa using List.mem_takeWhile_imp hc
      have hafter : s.toList.dropWhile (· != c) = c :: (s.toList.dropWhile (· != c)).drop 1 := by
        have hne : s.toList.dropWhile (· != c) ≠ [] := by
          rw [Ne, List.dropWhile_eq_nil_iff]
          intro hall
          simpa using hall c hmem
        obtain ⟨d, rest, hrest⟩ := List.exists_cons_of_ne_nil hne
        have hd : d = c := by
          have hhead := List.head_dropWhile_not (· != c) hne
          simpa [hrest] using hhead
        rw [hrest, hd]
        rfl
      refine ⟨by simpa using hbefore, ?_⟩
      rw [String.toList_ofList, String.toList_ofList, ← hafter, List.takeWhile_append_dropWhile]
    · cases h
  · rintro ⟨hbefore, hs⟩
    have hall : ∀ a ∈ before.toList, (a != c) = true := by
      intro a ha
      have hne : a ≠ c := fun h => hbefore (h ▸ ha)
      simpa using hne
    rw [if_pos (by simp [hs]), hs, List.takeWhile_append_of_pos hall,
      List.dropWhile_append_of_pos hall]
    simp

/-- `str::eq_ignore_ascii_case`. -/
def eqIgnoreAsciiCase (s t : String) : Bool :=
  s.toList.map Char.toLower == t.toList.map Char.toLower

/-- `u8::is_ascii_digit`. -/
def isAsciiDigit (b : UInt8) : Bool :=
  0x30 ≤ b && b ≤ 0x39

/-- `str::parse::<usize>`: an optional `+`, then at least one decimal digit, in
range. -/
def parseUsize (s : String) : Option Nat :=
  let digits :=
    match s.toList with
    | '+' :: digits => digits
    | digits => digits
  if digits = [] ∨ digits.any (fun c => !c.isDigit) then none
  else if Nat.ofDigitChars 10 digits 0 ≤ usizeMax then
    some (Nat.ofDigitChars 10 digits 0)
  else none

theorem isAsciiDigit_iff (b : UInt8) :
    isAsciiDigit b = true ↔ 48 ≤ b.toNat ∧ b.toNat ≤ 57 := by
  simp [isAsciiDigit, UInt8.le_iff_toNat_le]

theorem isAsciiDigit_utf8EncodeChar (c : Char) :
    (∀ b ∈ String.utf8EncodeChar c, isAsciiDigit b = true) ↔ c.isDigit = true := by
  have hc : c.toNat < 4294967296 := c.val.toNat_lt
  have hdigit : c.isDigit = true ↔ 48 ≤ c.toNat ∧ c.toNat ≤ 57 := by
    simp [Char.isDigit, UInt32.le_iff_toNat_le]
  rw [hdigit]
  unfold String.utf8EncodeChar
  change (∀ b ∈ (if c.toNat ≤ 127 then _ else _ : List UInt8), _) ↔ _
  split
  · simp [isAsciiDigit_iff]
    omega
  · simp only [isAsciiDigit_iff]
    constructor
    · -- the first byte of a longer encoding is no digit
      intro h
      exfalso
      split at h
      · have := h _ List.mem_cons_self
        simp at this
        omega
      · split at h
        · have := h _ List.mem_cons_self
          simp at this
          omega
        · have := h _ List.mem_cons_self
          simp at this
          omega
    · omega

/-- A decimal number has one byte a digit. -/
theorem length_asBytes_of_digits
    {s : String} (hdigits : ∀ c ∈ s.toList, c.isDigit = true) :
    (asBytes s).length = s.toList.length := by
  rw [asBytes_eq_flatMap, List.length_flatMap]
  have hone : ∀ c ∈ s.toList, (String.utf8EncodeChar c).length = 1 := by
    intro c hc
    have hdigit := hdigits c hc
    have hsmall : c.toNat ≤ 127 := by
      simp [Char.isDigit, UInt32.le_iff_toNat_le] at hdigit
      omega
    unfold String.utf8EncodeChar
    change (if c.toNat ≤ 127 then _ else _ : List UInt8).length = 1
    rw [if_pos hsmall]
    rfl
  rw [List.map_congr_left hone]
  simp

/-- The bytes of a string are all ASCII digits when its characters are. -/
theorem all_isAsciiDigit_asBytes (s : String) :
    (asBytes s).all isAsciiDigit = s.toList.all Char.isDigit := by
  rw [Bool.eq_iff_iff, asBytes_eq_flatMap, List.all_flatMap, List.all_eq_true, List.all_eq_true]
  simp only [List.all_eq_true, isAsciiDigit_utf8EncodeChar]

theorem parseUsize_of_digits
    {s : String} (hne : s.toList ≠ [])
    (hdigits : s.toList.all Char.isDigit = true) :
    parseUsize s =
      if Nat.ofDigitChars 10 s.toList 0 ≤ usizeMax then
        some (Nat.ofDigitChars 10 s.toList 0)
      else none := by
  have hplus : ∀ cs, s.toList ≠ '+' :: cs := by
    intro cs h
    have := List.all_eq_true.1 hdigits '+' (by simp [h])
    simp at this
  have hany : s.toList.any (fun c => !c.isDigit) = false := by
    simpa using hdigits
  unfold parseUsize
  split
  · rename_i cs h
    exact absurd h (hplus cs)
  · simp [hne, hany]

end Splitting

section Slicing

/-- `str::char_indices`, from the byte at which these characters start. -/
def charIndices (start : Nat) : List Char → List (Nat × Char)
  | [] => []
  | c :: cs => (start, c) :: charIndices (start + (String.utf8EncodeChar c).length) cs

/-- `str::is_char_boundary`. -/
def isCharBoundary (s : String) (index : Nat) : Bool :=
  if index = 0 then true
  else
    match (asBytes s)[index]? with
    | some b => !isContinuation b
    | none => index == (asBytes s).length

/-- `&s[..end]`; nothing where that panics. -/
def sliceTo (s : String) (index : Nat) : Option String :=
  if isCharBoundary s index then decodeUtf8 ((asBytes s).take index) else none

theorem charIndices_append (start : Nat) (cs ds : List Char) :
    charIndices start (cs ++ ds) =
      charIndices start cs ++
        charIndices (start + (cs.flatMap String.utf8EncodeChar).length) ds := by
  induction cs generalizing start with
  | nil =>
      rfl
  | cons c cs ih =>
      simp only [List.cons_append, charIndices, ih, List.flatMap_cons, List.length_append]
      rw [Nat.add_assoc]

@[simp] theorem length_charIndices (start : Nat) (cs : List Char) :
    (charIndices start cs).length = cs.length := by
  induction cs generalizing start with
  | nil =>
      rfl
  | cons c cs ih =>
      simp [charIndices, ih]

/-- The first byte of a character continues no other. -/
theorem exists_utf8EncodeChar_eq_cons (c : Char) :
    ∃ b bs, String.utf8EncodeChar c = b :: bs ∧ isContinuation b = false := by
  have hc : c.toNat < 0x110000 := by
    rcases c.valid with h | ⟨-, h⟩
    · exact Nat.lt_trans h (by decide)
    · exact h
  have hfirst : ∀ b : UInt8, (b.toNat < 128 ∨ 191 < b.toNat) → isContinuation b = false := by
    intro b hb
    rw [Bool.eq_false_iff]
    intro h
    simp only [isContinuation, Bool.and_eq_true, decide_eq_true_eq, UInt8.le_iff_toNat_le] at h
    obtain ⟨hlow, hhigh⟩ := h
    simp at hlow hhigh
    omega
  unfold String.utf8EncodeChar
  change ∃ b bs, (if c.toNat ≤ 127 then _ else _ : List UInt8) = b :: bs ∧ _
  split
  · refine ⟨_, _, rfl, hfirst _ (Or.inl ?_)⟩
    simp
    omega
  · split
    · refine ⟨_, _, rfl, hfirst _ (Or.inr ?_)⟩
      simp
      omega
    · split
      · refine ⟨_, _, rfl, hfirst _ (Or.inr ?_)⟩
        simp
        omega
      · refine ⟨_, _, rfl, hfirst _ (Or.inr ?_)⟩
        simp
        omega

/-- Up to where a character starts, slicing takes the characters before it. -/
theorem sliceTo_append (cs : List Char) (c : Char) (ds : List Char) :
    sliceTo (String.ofList (cs ++ c :: ds)) (cs.flatMap String.utf8EncodeChar).length =
      some (String.ofList cs) := by
  obtain ⟨b, bs, hencode, hfirst⟩ := exists_utf8EncodeChar_eq_cons c
  have hbytes : asBytes (String.ofList (cs ++ c :: ds)) =
      cs.flatMap String.utf8EncodeChar ++ b :: (bs ++ ds.flatMap String.utf8EncodeChar) := by
    rw [asBytes_eq_flatMap, String.toList_ofList, List.flatMap_append, List.flatMap_cons, hencode,
      List.cons_append]
  have hboundary : isCharBoundary (String.ofList (cs ++ c :: ds))
      (cs.flatMap String.utf8EncodeChar).length = true := by
    unfold isCharBoundary
    split
    · rfl
    · rw [hbytes, List.getElem?_append_right (Nat.le_refl _), Nat.sub_self]
      simp [hfirst]
  rw [sliceTo, if_pos hboundary, hbytes, List.take_left]
  have htext : cs.flatMap String.utf8EncodeChar = asBytes (String.ofList cs) := by
    rw [asBytes_eq_flatMap, String.toList_ofList]
  rw [htext, decodeUtf8_asBytes]

end Slicing

end Text
end McpCore
