import BranchingDialogue.Text.Utf8

/-! Text and addresses inside HTML. -/
namespace BranchingDialogue.Markup

def isWordChar (c : Char) : Bool := c.isAlphanum || c == '_'

def isHexDigit (c : Char) : Bool :=
  c.isDigit || ('a' ≤ c && c ≤ 'f') || ('A' ≤ c && c ≤ 'F')

/-- At most `most` characters of a class, at least one, and a semicolon. -/
def closedRun (most : Nat) (inClass : Char → Bool) (cs : List Char) : Bool :=
  let run := cs.takeWhile inClass
  !run.isEmpty && run.length ≤ most && (cs.dropWhile inClass).head? == some ';'

/-- Whether what follows an ampersand makes it a character reference. -/
def isReference : List Char → Bool
  | '#' :: cs =>
    closedRun 7 Char.isDigit cs ||
      match cs with
      | 'x' :: ds | 'X' :: ds => closedRun 6 isHexDigit ds
      | _ => false
  | cs => closedRun cs.length isWordChar cs

/-- The characters that stand for themselves neither in text nor in an attribute. -/
def escapeChar (c : Char) : List Char :=
  if c = '<' then "&lt;".toList
  else if c = '>' then "&gt;".toList
  else if c = '"' then "&quot;".toList
  else if c = '\'' then "&#39;".toList
  else if c = '&' then "&amp;".toList
  else [c]

/-- Text in HTML; character references in it are kept. -/
def escape : List Char → List Char
  | [] => []
  | c :: cs => (if c = '&' ∧ isReference cs then ['&'] else escapeChar c) ++ escape cs

/-- Text in HTML, character references shown as they are written. -/
def escapeAll (cs : List Char) : List Char := cs.flatMap escapeChar

/-- The characters that an address holds as they are, the percent sign of an escape among them. -/
def isAddressChar (c : Char) : Bool :=
  c.isAlphanum || ";,/?:@&=+$-_.!~*'()#%".toList.contains c

def percentByte (b : Text.Utf8.Byte) : List Char :=
  ['%', (Nat.digitChar (b.toNat / 16)).toUpper, (Nat.digitChar (b.toNat % 16)).toUpper]

/-- An address, every other character written as the percent escapes of its bytes. -/
def encodeAddress (cs : List Char) : List Char :=
  cs.flatMap fun c => if isAddressChar c then [c] else (String.utf8EncodeChar c).flatMap percentByte

/-- Text that begins no tag, and ends neither a tag nor the value of an attribute. -/
def IsInert (cs : List Char) : Prop := ∀ c ∈ cs, c ≠ '<' ∧ c ≠ '>' ∧ c ≠ '"'

theorem isInert_append {cs ds : List Char} : IsInert (cs ++ ds) ↔ IsInert cs ∧ IsInert ds :=
  List.forall_mem_append

theorem IsInert.lt_notMem {cs : List Char} (h : IsInert cs) : '<' ∉ cs := fun hm => (h '<' hm).1 rfl

theorem isInert_escapeChar (c : Char) : IsInert (escapeChar c) := by
  unfold escapeChar
  repeat' split
  case isFalse.isFalse.isFalse.isFalse.isFalse hlt hgt hquote _ _ =>
    intro d hd
    rw [List.mem_singleton.mp hd]
    exact ⟨hlt, hgt, hquote⟩
  all_goals simp [IsInert]

theorem isInert_escape (cs : List Char) : IsInert (escape cs) := by
  induction cs with
  | nil => simp [escape, IsInert]
  | cons c cs ih =>
    rw [escape, isInert_append]
    refine ⟨?_, ih⟩
    split
    · simp [IsInert]
    · exact isInert_escapeChar c

theorem isInert_escapeAll (cs : List Char) : IsInert (escapeAll cs) := by
  intro d hd
  obtain ⟨c, -, hd⟩ := List.mem_flatMap.mp hd
  exact isInert_escapeChar c d hd

theorem isInert_percentByte (b : Text.Utf8.Byte) : IsInert (percentByte b) := by
  have hdigit : ∀ n < 16, (Nat.digitChar n).toUpper ≠ '<' ∧ (Nat.digitChar n).toUpper ≠ '>' ∧
      (Nat.digitChar n).toUpper ≠ '"' := by decide
  have hb := b.toNat_lt
  have hhigh := hdigit (b.toNat / 16) (by omega)
  have hlow := hdigit (b.toNat % 16) (by omega)
  simpa [IsInert, percentByte] using ⟨hhigh, hlow⟩

theorem isInert_encodeAddress (cs : List Char) : IsInert (encodeAddress cs) := by
  intro d hd
  obtain ⟨c, -, hd⟩ := List.mem_flatMap.mp hd
  split at hd
  next hkept =>
    rw [List.mem_singleton.mp hd]
    refine ⟨?_, ?_, ?_⟩
    all_goals
      rintro rfl
      exact absurd hkept (by decide)
  next =>
    obtain ⟨b, -, hd⟩ := List.mem_flatMap.mp hd
    exact isInert_percentByte b d hd

example : escape "a<b & &amp; &#39; &#x; &1;".toList = "a&lt;b &amp; &amp; &#39; &amp;#x; &1;".toList := by
  decide +kernel
example : encodeAddress "é\"%20".toList = "%C3%A9%22%20".toList := by decide +kernel

end BranchingDialogue.Markup
