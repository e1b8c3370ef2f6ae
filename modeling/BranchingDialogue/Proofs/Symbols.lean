import BranchingDialogue.Uid

/-! Identifiers are read back as the numbers they were made of, and the identifiers that are made of numbers
are those without needless zeros in front: numbers and these identifiers are in one-to-one correspondence. -/
namespace BranchingDialogue.Uid

variable {uid : String} {high v : Nat} {cs : List Char}

theorem value?_symbol (h : v < 64) : value? (symbol v) = some v := by
  have hall : ∀ v < 64, value? (symbol v) = some v := by decide +kernel
  exact hall v h

/-- Symbols are read in order: first some, then the rest with the value of these. -/
theorem decodeFrom_append (h : decodeFrom uid high cs = .ok v) (ds : List Char) :
    decodeFrom uid high (cs ++ ds) = decodeFrom uid v ds := by
  induction cs generalizing high with
  | nil =>
    cases h
    rfl
  | cons c cs ih =>
    rw [List.cons_append, decodeFrom]
    rw [decodeFrom] at h
    cases hc : value? c with
    | none =>
      rw [hc] at h
      cases h
    | some w =>
      rw [hc] at h
      exact ih h

theorem decodeFrom_symbol (h : v < 64) :
    decodeFrom uid high [symbol v] = .ok (high * 64 + v) := by
  rw [decodeFrom, value?_symbol h]
  rfl

theorem decodeFrom_symbols (uid : String) (n : Nat) : decodeFrom uid 0 (symbols n) = .ok n := by
  induction n using symbols.induct with
  | case1 n hn =>
    rw [symbols, if_pos hn, decodeFrom_symbol hn, Nat.zero_mul, Nat.zero_add]
  | case2 n hn ih =>
    rw [symbols, if_neg hn, decodeFrom_append ih, decodeFrom_symbol (Nat.mod_lt n (by decide)),
      Nat.div_add_mod']

theorem decode_ofNat (n : Nat) : decode (ofNat n) = .ok n := by
  rw [decode, ofNat, String.toList_ofList, decodeFrom_symbols]

theorem ofNat_injective : Function.Injective ofNat := by
  intro m n h
  have hread := congrArg decode h
  rw [decode_ofNat, decode_ofNat] at hread
  exact Except.ok.inj hread

theorem value?_eq_none_iff {c : Char} : value? c = none ↔ c ∉ alphabet :=
  List.idxOf?_eq_none_iff

theorem symbol_mem_alphabet (h : v < 64) : symbol v ∈ alphabet := by
  refine Decidable.byContradiction fun hc => ?_
  rw [← value?_eq_none_iff, value?_symbol h] at hc
  cases hc

/-- A symbol that has a value is the symbol of that value. -/
theorem value?_eq_some_iff {c : Char} : value? c = some v ↔ v < 64 ∧ symbol v = c := by
  constructor
  · intro h
    obtain ⟨hlt, hc, -⟩ := List.idxOf?_eq_some_iff.mp h
    exact ⟨hlt, by simp [symbol, hlt, hc]⟩
  · rintro ⟨hlt, rfl⟩
    exact value?_symbol hlt

theorem symbols_of_lt {n : Nat} (h : n < 64) : symbols n = [symbol n] := by
  rw [symbols, if_pos h]

/-- A symbol after those of a number other than zero makes it a digit longer. -/
theorem symbols_mul_add (hhigh : 0 < high) (h : v < 64) :
    symbols (high * 64 + v) = symbols high ++ [symbol v] := by
  have hdiv : (high * 64 + v) / 64 = high := by omega
  have hmod : (high * 64 + v) % 64 = v := by omega
  rw [symbols, if_neg (by omega), hdiv, hmod]

theorem decodeFrom_cons_of_value? {c : Char} (h : value? c = some v) :
    decodeFrom uid high (c :: cs) = decodeFrom uid (high * 64 + v) cs := by
  rw [decodeFrom, h]

/-- Reading goes as far as there are symbols, and stops at the first character that is none. -/
theorem decodeFrom_eq_error_iff {e : UidError} : decodeFrom uid high cs = .error e ↔
    ∃ c, cs.find? (· ∉ alphabet) = some c ∧ e = .illegalSymbol c uid := by
  induction cs generalizing high with
  | nil => simp [decodeFrom]
  | cons c cs ih =>
    cases hc : value? c with
    | none =>
      have hillegal : c ∉ alphabet := value?_eq_none_iff.mp hc
      rw [decodeFrom, hc, List.find?_cons_of_pos (by simpa using hillegal)]
      simp [eq_comm]
    | some v =>
      have hlegal : c ∈ alphabet := by
        obtain ⟨hlt, rfl⟩ := value?_eq_some_iff.mp hc
        exact symbol_mem_alphabet hlt
      rw [decodeFrom_cons_of_value? hc, List.find?_cons_of_neg (by simpa using hlegal)]
      exact ih

/-- Symbols that are read after a number other than zero are the last symbols of the number read. -/
theorem symbols_of_decodeFrom {n : Nat} (hhigh : 0 < high) (h : decodeFrom uid high cs = .ok n) :
    symbols n = symbols high ++ cs := by
  induction cs generalizing high with
  | nil =>
    cases h
    simp
  | cons c cs ih =>
    cases hc : value? c with
    | none =>
      rw [decodeFrom, hc] at h
      cases h
    | some v =>
      rw [decodeFrom_cons_of_value? hc] at h
      obtain ⟨hlt, rfl⟩ := value?_eq_some_iff.mp hc
      rw [ih (by omega) h, symbols_mul_add hhigh hlt, List.append_assoc]
      rfl

/-- At least one symbol, nothing but symbols, and no zero in front of others. -/
structure Canonical (uid : String) : Prop where
  ne_nil : uid.toList ≠ []
  mem_alphabet : ∀ c ∈ uid.toList, c ∈ alphabet
  eq_zero : uid.toList.head? = some '_' → uid = "_"

theorem symbols_ne_nil (n : Nat) : symbols n ≠ [] := by
  rw [symbols]
  split <;> simp

theorem mem_alphabet_of_mem_symbols {n : Nat} {c : Char} (h : c ∈ symbols n) : c ∈ alphabet := by
  induction n using symbols.induct with
  | case1 n hn =>
    rw [symbols_of_lt hn, List.mem_singleton] at h
    exact h ▸ symbol_mem_alphabet hn
  | case2 n hn ih =>
    rw [symbols, if_neg hn, List.mem_append, List.mem_singleton] at h
    rcases h with h | rfl
    · exact ih h
    · exact symbol_mem_alphabet (Nat.mod_lt n (by decide))

/-- No number but zero begins with the symbol of zero. -/
theorem eq_zero_of_head?_symbols {n : Nat} (h : (symbols n).head? = some '_') : n = 0 := by
  induction n using symbols.induct with
  | case1 n hn =>
    have hall : ∀ v < 64, symbol v = '_' → v = 0 := by decide +kernel
    rw [symbols_of_lt hn] at h
    exact hall n hn (Option.some.inj h)
  | case2 n hn ih =>
    obtain ⟨d, ds, hds⟩ := List.exists_cons_of_ne_nil (symbols_ne_nil (n / 64))
    have hzero : n / 64 = 0 := by
      apply ih
      rw [symbols, if_neg hn, hds] at h
      rw [hds]
      exact h
    omega

theorem canonical_ofNat (n : Nat) : Canonical (ofNat n) where
  ne_nil := by
    rw [ofNat, String.toList_ofList]
    exact symbols_ne_nil n
  mem_alphabet c hc := by
    rw [ofNat, String.toList_ofList] at hc
    exact mem_alphabet_of_mem_symbols hc
  eq_zero h := by
    rw [ofNat, String.toList_ofList] at h
    rw [eq_zero_of_head?_symbols h]
    decide +kernel

/-- A canonical identifier is what its number is written as. -/
theorem Canonical.ofNat_of_decode {n : Nat} (h : Canonical uid) (hn : decode uid = .ok n) : ofNat n = uid := by
  obtain ⟨c, cs, hcs⟩ := List.exists_cons_of_ne_nil h.ne_nil
  rw [decode, hcs] at hn
  cases hc : value? c with
  | none =>
    rw [decodeFrom, hc] at hn
    cases hn
  | some v =>
    obtain ⟨hlt, rfl⟩ := value?_eq_some_iff.mp hc
    rw [decodeFrom_cons_of_value? hc, Nat.zero_mul, Nat.zero_add] at hn
    rcases Nat.eq_zero_or_pos v with rfl | hpos
    · have hzero : uid = "_" := h.eq_zero (by rw [hcs]; rfl)
      have hnil : cs = [] := by
        have hlist := hcs.symm.trans (congrArg String.toList hzero)
        exact (List.cons.inj hlist).2
      subst hnil
      cases hn
      rw [hzero]
      decide +kernel
    · rw [ofNat, symbols_of_decodeFrom hpos hn, symbols_of_lt hlt, List.singleton_append, ← hcs,
        String.ofList_toList]

theorem exists_decode_eq_error_iff :
    (∃ e, decode uid = .error e) ↔ ∃ c ∈ uid.toList, c ∉ alphabet := by
  simp only [decode, decodeFrom_eq_error_iff]
  constructor
  · rintro ⟨-, c, hc, -⟩
    exact ⟨c, List.mem_of_find?_eq_some hc, by simpa using List.find?_some hc⟩
  · rintro ⟨c, hc, hillegal⟩
    have hsome : (uid.toList.find? (· ∉ alphabet)).isSome :=
      List.find?_isSome.mpr ⟨c, hc, by simpa using hillegal⟩
    obtain ⟨d, hd⟩ := Option.isSome_iff_exists.mp hsome
    exact ⟨_, d, hd, rfl⟩

theorem Canonical.exists_decode (h : Canonical uid) : ∃ n, decode uid = .ok n := by
  cases hn : decode uid with
  | ok n => exact ⟨n, rfl⟩
  | error e =>
    obtain ⟨c, hc, hillegal⟩ := exists_decode_eq_error_iff.mp ⟨e, hn⟩
    exact absurd (h.mem_alphabet c hc) hillegal

theorem exists_encode_eq_ok_iff : (∃ v, encode v = .ok uid) ↔ ∃ n, ofNat n = uid := by
  constructor
  · rintro ⟨v | v, hv⟩
    · exact ⟨v, Except.ok.inj hv⟩
    · cases hv
  · rintro ⟨n, rfl⟩
    exact ⟨n, rfl⟩

/-- Writing and reading identifiers undo each other on the natural numbers and the canonical identifiers.
Only negative numbers cannot be written, and only texts with other characters cannot be read; a text that
can be read and is not canonical is written otherwise. -/
theorem encode_decode_canonical :
    (∀ n : Nat, ∃ uid, encode n = .ok uid ∧ decode uid = .ok n) ∧
      (∀ uid, (∃ v, encode v = .ok uid) ↔ Canonical uid) ∧
      (∀ uid, (∃ n : Nat, decode uid = .ok n ∧ encode n = .ok uid) ↔ Canonical uid) ∧
      (∀ uid, (∃ e, decode uid = .error e) ↔ ∃ c ∈ uid.toList, c ∉ alphabet) ∧
      ∀ v, (∃ e, encode v = .error e) ↔ v < 0 := by
  refine ⟨fun n => ⟨ofNat n, rfl, decode_ofNat n⟩, fun uid => ?_, fun uid => ?_,
    fun _ => exists_decode_eq_error_iff, fun v => ?_⟩
  · rw [exists_encode_eq_ok_iff]
    constructor
    · rintro ⟨n, rfl⟩
      exact canonical_ofNat n
    · intro h
      obtain ⟨n, hn⟩ := h.exists_decode
      exact ⟨n, h.ofNat_of_decode hn⟩
  · constructor
    · rintro ⟨n, -, hn⟩
      cases hn
      exact canonical_ofNat n
    · intro h
      obtain ⟨n, hn⟩ := h.exists_decode
      exact ⟨n, hn, congrArg Except.ok (h.ofNat_of_decode hn)⟩
  · cases v with
    | ofNat n => exact iff_of_false nofun (Int.not_lt.mpr (Int.natCast_nonneg n))
    | negSucc n => exact iff_of_true ⟨_, rfl⟩ (Int.negSucc_lt_zero n)

end BranchingDialogue.Uid
