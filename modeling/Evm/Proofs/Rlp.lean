import Evm.Proofs.Bytes
import Evm.State.Account

/-!
# Written forms are read back

Every reader reads back what was written for it, and leaves what comes after it in the input.
-/

namespace Evm.Rlp

/-! ## Digits -/

lemma ofDigits_append_singleton (b : List UInt8) (x : UInt8) :
    ofDigits (b ++ [x]) = ofDigits b * 256 + x.toNat := by
  simp only [ofDigits, List.foldl_append, List.foldl_cons, List.foldl_nil]

lemma digits_zero : digits 0 = [] := by
  rw [digits, if_pos rfl]

lemma digits_of_ne_zero {n : Nat} (h : n ≠ 0) :
    digits n = digits (n / 256) ++ [UInt8.ofNat (n % 256)] := by
  rw [digits, if_neg h]

lemma toNat_ofNat_mod (n : Nat) : (UInt8.ofNat (n % 256)).toNat = n % 256 := by
  rw [UInt8.toNat_ofNat']
  exact Nat.mod_eq_of_lt (Nat.mod_lt n (by decide))

/-- The digits of a number spell it. -/
lemma ofDigits_digits (n : Nat) : ofDigits (digits n) = n := by
  induction n using digits.induct with
  | case1 =>
    rw [digits_zero]
    rfl
  | case2 n h ih =>
    rw [digits_of_ne_zero h, ofDigits_append_singleton, ih, toNat_ofNat_mod]
    omega

lemma length_digits_le {n k : Nat} (h : n < 256 ^ k) : (digits n).length ≤ k := by
  induction n using digits.induct generalizing k with
  | case1 =>
    rw [digits_zero]
    exact Nat.zero_le k
  | case2 n hn ih =>
    rw [digits_of_ne_zero hn, List.length_append, List.length_singleton]
    cases k with
    | zero => exact absurd (Nat.lt_one_iff.1 h) hn
    | succ k =>
      rw [pow_succ] at h
      have hlt : n / 256 < 256 ^ k := Nat.div_lt_of_lt_mul (by rwa [Nat.mul_comm])
      exact Nat.succ_le_succ (ih hlt)

/-- A digit is eight bits. -/
lemma length_digits (n : Nat) : (digits n).length = if n = 0 then 0 else Nat.log 2 n / 8 + 1 := by
  induction n using digits.induct with
  | case1 =>
    rw [digits_zero]
    rfl
  | case2 n h ih =>
    have hlog : Nat.log 2 (n / 256) = Nat.log 2 n - 8 := Nat.log_div_base_pow 2 n 8
    rw [digits_of_ne_zero h, List.length_append, List.length_singleton, ih, if_neg h]
    by_cases hzero : n / 256 = 0
    · have hlt : Nat.log 2 n < 8 := Nat.log_lt_of_lt_pow h (by omega)
      rw [if_pos hzero]
      omega
    · have hle : 8 ≤ Nat.log 2 n := Nat.le_log_of_pow_le (by decide) (by omega)
      rw [if_neg hzero, hlog]
      omega

/-- The first digit is not zero. -/
lemma head?_digits_ne (n : Nat) : (digits n).head? ≠ some 0 := by
  induction n using digits.induct with
  | case1 =>
    rw [digits_zero]
    exact nofun
  | case2 n h ih =>
    rw [digits_of_ne_zero h]
    cases hd : digits (n / 256) with
    | cons x rest =>
      rw [hd] at ih
      exact ih
    | nil =>
      have hzero : n / 256 = 0 := by
        have := ofDigits_digits (n / 256)
        rw [hd] at this
        exact this.symm
      intro heq
      have hx : UInt8.ofNat (n % 256) = 0 := Option.some.inj heq
      have hmod := toNat_ofNat_mod n
      rw [hx] at hmod
      change 0 = n % 256 at hmod
      omega

lemma number_digits {n width : Nat} (h : n < 256 ^ width) : number width (digits n) = .ok n := by
  have hlen := Nat.not_lt.2 (length_digits_le h)
  rw [number, if_neg hlen, if_neg (head?_digits_ne n), ofDigits_digits]

/-! ## Strings and lists -/

section

variable {α : Type}

lemma run_bind {β : Type} (p : Reader α) (q : α → Reader β) (input : List UInt8) :
    (p >>= q).run input =
      match p.run input with
      | .ok (a, rest) => (q a).run rest
      | .error e => .error e := by
  change (p.run input >>= fun x => (q x.1).run x.2) = _
  cases p.run input <;> rfl

lemma run_bind_ok {β : Type} {p : Reader α} {q : α → Reader β} {input rest : List UInt8} {a : α}
    (h : p.run input = .ok (a, rest)) : (p >>= q).run input = (q a).run rest := by
  rw [run_bind, h]

lemma take_append (b rest : List UInt8) :
    (take b.length).run (b ++ rest) = .ok (b, rest) := by
  have hlen : ¬(b ++ rest).length < b.length := by
    rw [List.length_append]
    omega
  change take b.length (b ++ rest) = _
  rw [take, if_neg hlen, List.take_left, List.drop_left]

lemma longLength_digits {n : Nat} (hlong : ¬n < 56) (h : n < 256 ^ 8) (rest : List UInt8) :
    (longLength (digits n).length).run (digits n ++ rest) = .ok (n, rest) := by
  unfold longLength
  rw [run_bind_ok (take_append _ _), number_digits h]
  change (if n < 56 then throw Error.nonCanonicalSize else pure n : Reader Nat).run rest = _
  rw [if_neg hlong]
  rfl

/-- The first byte of a header, as a number. -/
lemma toNat_ofNat_of_lt {n : Nat} (h : n < 256) : (UInt8.ofNat n).toNat = n := by
  rw [UInt8.toNat_ofNat', Nat.mod_eq_of_lt h]

lemma length_digits_pos {n : Nat} (h : n ≠ 0) : 0 < (digits n).length := by
  rw [digits_of_ne_zero h, List.length_append, List.length_singleton]
  exact Nat.succ_pos _

lemma map_longLength_digits (f : Nat → α) {n : Nat} (hlong : ¬n < 56) (h : n < 256 ^ 8)
    (rest : List UInt8) :
    (f <$> longLength (digits n).length).run (digits n ++ rest) = .ok (f n, rest) := by
  rw [map_eq_pure_bind, run_bind_ok (longLength_digits hlong h rest)]
  rfl

/-- The first byte of a long header says how many bytes the length takes. -/
lemma rawHeader_long (isList : Bool) {size : Nat} (hpos : 0 < size) (hle : size ≤ 8)
    (tail : List UInt8) :
    rawHeader.run (UInt8.ofNat ((if isList then 0xc0 else 0x80) + 55 + size) :: tail) =
      (Header.mk isList <$> longLength size).run tail := by
  change rawHeader (UInt8.ofNat ((if isList then 0xc0 else 0x80) + 55 + size) :: tail) = _
  unfold rawHeader
  dsimp only
  cases isList with
  | true =>
    rw [if_pos rfl, toNat_ofNat_of_lt (by omega)]
    simp only [show ¬0xc0 + 55 + size < 0x80 by omega, show ¬0xc0 + 55 + size < 0xb8 by omega,
      show ¬0xc0 + 55 + size < 0xc0 by omega, show ¬0xc0 + 55 + size < 0xf8 by omega, if_false,
      show 0xc0 + 55 + size - 0xf7 = size by omega]
  | false =>
    rw [if_neg Bool.false_ne_true, toNat_ofNat_of_lt (by omega)]
    simp only [show ¬0x80 + 55 + size < 0x80 by omega, show ¬0x80 + 55 + size < 0xb8 by omega,
      show 0x80 + 55 + size < 0xc0 by omega, if_true, if_false,
      show 0x80 + 55 + size - 0xb7 = size by omega]

/-- The header of a list is read back. -/
lemma rawHeader_list {n : Nat} (h : n < 256 ^ 8) (rest : List UInt8) :
    rawHeader.run (Header.encode ⟨true, n⟩ ++ rest) = .ok (⟨true, n⟩, rest) := by
  unfold Header.encode
  dsimp only
  by_cases hshort : n < 56
  · rw [if_pos hshort]
    change rawHeader (UInt8.ofNat (0xc0 + n) :: rest) = _
    unfold rawHeader
    dsimp only
    rw [toNat_ofNat_of_lt (by omega)]
    simp only [show ¬0xc0 + n < 0x80 by omega, show ¬0xc0 + n < 0xb8 by omega,
      show ¬0xc0 + n < 0xc0 by omega, show 0xc0 + n < 0xf8 by omega, if_true, if_false,
      Nat.add_sub_cancel_left]
  · rw [if_neg hshort, List.cons_append,
      rawHeader_long _ (length_digits_pos (by omega)) (length_digits_le h)]
    exact map_longLength_digits _ hshort h rest

/-- The header of a string is read back, unless it stands before a byte that is its own payload. -/
lemma rawHeader_string {n : Nat} (h : n < 256 ^ 8) (rest : List UInt8)
    (hsingle : n = 1 → ∃ x tail, rest = x :: tail ∧ ¬x < 0x80) :
    rawHeader.run (Header.encode ⟨false, n⟩ ++ rest) = .ok (⟨false, n⟩, rest) := by
  unfold Header.encode
  dsimp only
  by_cases hshort : n < 56
  · rw [if_pos hshort]
    change rawHeader (UInt8.ofNat (0x80 + n) :: rest) = _
    unfold rawHeader
    dsimp only
    rw [toNat_ofNat_of_lt (by omega)]
    simp only [show ¬0x80 + n < 0x80 by omega, show 0x80 + n < 0xb8 by omega, if_true, if_false,
      Nat.add_sub_cancel_left]
    split
    · obtain rfl : n = 1 := by omega
      obtain ⟨x, tail, rfl, hx⟩ := hsingle rfl
      simp only [hx, if_false]
    · rfl
  · rw [if_neg hshort, List.cons_append,
      rawHeader_long _ (length_digits_pos (by omega)) (length_digits_le h)]
    exact map_longLength_digits _ hshort h rest

/-- A header is read if its payload is there. -/
lemma header_of_rawHeader {input rest : List UInt8} {h : Header}
    (hraw : rawHeader.run input = .ok (h, rest)) (hlen : h.length ≤ rest.length) :
    header.run input = .ok (h, rest) := by
  unfold header
  rw [run_bind_ok hraw]
  change (if rest.length < h.length then throw Error.inputTooShort else pure h : Reader Header).run
    rest = _
  rw [if_neg (Nat.not_lt.2 hlen)]
  rfl

/-- A string is read back. -/
lemma string_encodeString {b : List UInt8} (h : b.length < 256 ^ 8) (rest : List UInt8) :
    string.run (encodeString b ++ rest) = .ok (b, rest) := by
  have hread {input : List UInt8} (hraw : rawHeader.run input = .ok (⟨false, b.length⟩, b ++ rest)) :
      string.run input = .ok (b, rest) := by
    have hlen : b.length ≤ (b ++ rest).length := by
      rw [List.length_append]
      omega
    unfold string
    rw [run_bind_ok (header_of_rawHeader hraw hlen)]
    exact take_append b rest
  unfold encodeString
  split
  · rename_i x
    split
    · rename_i hx
      refine hread ?_
      have hlt : x.toNat < 0x80 := hx
      change rawHeader (x :: rest) = _
      unfold rawHeader
      dsimp only
      rw [if_pos hlt]
      rfl
    · rename_i hx
      rw [List.append_assoc]
      exact hread (rawHeader_string h _ fun _ => ⟨x, rest, rfl, hx⟩)
  · rename_i hne
    rw [List.append_assoc]
    refine hread (rawHeader_string h _ fun hone => ?_)
    obtain ⟨x, rfl⟩ := List.length_eq_one_iff.1 hone
    exact absurd rfl (hne x)

/-- A list is read back if its items are. -/
lemma list_encodeList {items : Reader α} {a : α} {written : List (List UInt8)} {rest : List UInt8}
    (h : written.flatten.length < 256 ^ 8)
    (hitems : items.run (written.flatten ++ rest) = .ok (a, rest)) :
    (list items).run (encodeList written ++ rest) = .ok (a, rest) := by
  have hlen : written.flatten.length ≤ (written.flatten ++ rest).length := by
    rw [List.length_append]
    omega
  unfold encodeList list
  rw [List.append_assoc, run_bind_ok (header_of_rawHeader (rawHeader_list h _) hlen)]
  rw [if_pos rfl]
  have hget : (get : Reader (List UInt8)).run (written.flatten ++ rest) =
      .ok (written.flatten ++ rest, written.flatten ++ rest) := rfl
  have hget' : (get : Reader (List UInt8)).run rest = .ok (rest, rest) := rfl
  have hgot : (written.flatten ++ rest).length - rest.length = written.flatten.length := by
    rw [List.length_append]
    omega
  rw [run_bind_ok hget, run_bind_ok hitems, run_bind_ok hget', hgot, if_pos rfl]
  rfl

/-- One item that is the whole input is read back. -/
lemma exact_of_run {item : Reader α} {input : List UInt8} {a : α}
    (h : item.run (input ++ []) = .ok (a, [])) : exact item input = .ok a := by
  rw [List.append_nil] at h
  unfold exact
  rw [h]
  rfl

end

/-! ## Numbers and hashes -/

lemma length_digits_lt {n k : Nat} (h : n < 256 ^ k) (hk : k < 256 ^ 8) :
    (digits n).length < 256 ^ 8 :=
  (length_digits_le h).trans_lt hk

lemma nat64_encodeNat (n : UInt64) (rest : List UInt8) :
    nat64.run (encodeNat n.toNat ++ rest) = .ok (n, rest) := by
  have hlt : n.toNat < 256 ^ 8 := n.toNat_lt
  unfold nat64 encodeNat
  rw [run_bind_ok (string_encodeString (length_digits_lt hlt (by decide)) rest),
    number_digits hlt]
  change Except.ok (UInt64.ofNat n.toNat, rest) = _
  rw [UInt64.ofNat_toNat]

lemma word_encodeNat (w : Word) (rest : List UInt8) :
    word.run (encodeNat w.toNat ++ rest) = .ok (w, rest) := by
  have hlt : w.toNat < 256 ^ 32 := w.isLt
  unfold word encodeNat
  rw [run_bind_ok (string_encodeString (length_digits_lt hlt (by decide)) rest),
    if_neg (head?_digits_ne _), if_neg (Nat.not_lt.2 (length_digits_le hlt)), ofDigits_digits]
  change Except.ok (BitVec.ofNat 256 w.toNat, rest) = _
  rw [BitVec.ofNat_toNat, BitVec.setWidth_eq]

lemma length_ofWord (w : Word) : (Bytes.ofWord w).toList.length = 32 := by
  rw [Array.length_toList, Bytes.ofWord, Bytes.size_ofNat]

lemma hash_encodeHash (h : Hash) (rest : List UInt8) :
    hash.run (encodeHash h ++ rest) = .ok (h, rest) := by
  have hlen := length_ofWord h
  unfold hash encodeHash
  have hdigits : ofDigits (Bytes.ofWord h).toList = h.toNat := by
    rw [ofDigits, Array.foldl_toList]
    exact Bytes.toNat_ofNat_of_lt h.isLt
  rw [run_bind_ok (string_encodeString (by rw [hlen]; decide) rest), if_pos hlen, hdigits]
  change Except.ok (BitVec.ofNat 256 h.toNat, rest) = _
  rw [BitVec.ofNat_toNat, BitVec.setWidth_eq]

/-! ## Lengths -/

lemma length_encodeString_le {b : List UInt8} (h : b.length < 56) :
    (encodeString b).length ≤ b.length + 1 := by
  have hheader (n : Nat) (hn : n < 56) : (Header.encode ⟨false, n⟩).length = 1 := by
    unfold Header.encode
    dsimp only
    rw [if_pos hn]
    rfl
  unfold encodeString
  split
  · split
    · exact Nat.le_succ _
    · rw [List.length_append, hheader 1 (by decide)]
      exact le_rfl
  · rw [List.length_append, hheader _ h, Nat.add_comm]

lemma length_encodeNat_le {n k : Nat} (h : n < 256 ^ k) (hk : k < 56) :
    (encodeNat n).length ≤ k + 1 := by
  have hlen := length_digits_le h
  exact (length_encodeString_le (hlen.trans_lt hk)).trans (Nat.succ_le_succ hlen)

lemma length_encodeHash_le (h : Hash) : (encodeHash h).length ≤ 33 := by
  have hlen := length_ofWord h
  have hle := length_encodeString_le (b := (Bytes.ofWord h).toList) (by rw [hlen]; decide)
  rwa [hlen] at hle

end Evm.Rlp

namespace Evm

/-- What is written of each field of an account. -/
def Account.items (a : Account) : List (List UInt8) :=
  [Rlp.encodeNat a.nonce.toNat, Rlp.encodeNat a.balance.toNat, Rlp.encodeHash a.storageRoot,
    Rlp.encodeHash a.codeHash]

lemma Account.length_flatten_items_le (a : Account) : a.items.flatten.length ≤ 108 := by
  have hnonce := Rlp.length_encodeNat_le (k := 8) (n := a.nonce.toNat) a.nonce.toNat_lt (by decide)
  have hbalance := Rlp.length_encodeNat_le (k := 32) (n := a.balance.toNat) a.balance.isLt (by decide)
  have hroot := Rlp.length_encodeHash_le a.storageRoot
  have hcode := Rlp.length_encodeHash_le a.codeHash
  simp only [items, List.flatten_cons, List.flatten_nil, List.append_nil, List.length_append]
  omega

/-- A record is read back, and what follows it is left in the input. -/
lemma Account.list_fields_encode (a : Account) (rest : List UInt8) :
    (Rlp.list fields).run (a.encode ++ rest) = .ok (a, rest) := by
  have hfields : fields.run (a.items.flatten ++ rest) = .ok (a, rest) := by
    simp only [items, List.flatten_cons, List.flatten_nil, List.append_nil, List.append_assoc]
    unfold fields
    rw [Rlp.run_bind_ok (Rlp.nat64_encodeNat _ _), Rlp.run_bind_ok (Rlp.word_encodeNat _ _),
      Rlp.run_bind_ok (Rlp.hash_encodeHash _ _), Rlp.run_bind_ok (Rlp.hash_encodeHash _ _)]
    rfl
  exact Rlp.list_encodeList (a.length_flatten_items_le.trans_lt (by decide)) hfields

/-- What is written of an account is read back. -/
theorem Account.decode_encode (a : Account) : decode a.encode = .ok a :=
  Rlp.exact_of_run (a.list_fields_encode [])

/-- What is written of a slot is read back. -/
theorem Rlp.exact_word_encodeNat (w : Word) : exact word (encodeNat w.toNat) = .ok w :=
  exact_of_run (word_encodeNat w [])

end Evm
