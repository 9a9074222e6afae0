import Evm.Proofs.Rlp
import Evm.State.Flush

/-!
# Only written forms are read

What a reader takes from the front of its input is what is written for the value that it gives. So a
value has one written form, which is not the beginning of any other, and there is an account record
in a string of bytes exactly if a flush writes that string for it (`Account.records_canonical`).
-/

namespace Evm.Rlp

/-! ## Digits -/

lemma ofDigits_eq (b : List UInt8) : ofDigits b = Bytes.toNat b.toArray := by
  rw [Bytes.toNat, List.foldl_toArray, ofDigits]

lemma ofDigits_lt (b : List UInt8) : ofDigits b < 256 ^ b.length := by
  rw [ofDigits_eq]
  exact Bytes.toNat_lt b.toArray

/-- Bytes without a zero in front are the digits of the number that they spell. -/
lemma digits_ofDigits {b : List UInt8} (h : b.head? ≠ some 0) : digits (ofDigits b) = b := by
  induction b using List.reverseRecOn with
  | nil => exact digits_zero
  | append_singleton b x ih =>
    have hx := x.toNat_lt
    have hdiv : ofDigits (b ++ [x]) / 256 = ofDigits b := by
      rw [ofDigits_append_singleton]
      omega
    have hmod : UInt8.ofNat (ofDigits (b ++ [x]) % 256) = x := by
      apply UInt8.toNat_inj.1
      rw [toNat_ofNat_mod, ofDigits_append_singleton]
      omega
    have hhigh : digits (ofDigits b) = b := by
      cases b with
      | nil => exact digits_zero
      | cons y b => exact ih h
    have hne : ofDigits (b ++ [x]) ≠ 0 := by
      intro hzero
      have hb : ofDigits b = 0 := by rw [← hdiv, hzero]
      rw [hb, digits_zero] at hhigh
      have hx : x = 0 := by
        rw [← hmod, hzero]
        rfl
      exact h (by rw [← hhigh, hx]; rfl)
    rw [digits_of_ne_zero hne, hdiv, hmod, hhigh]

lemma number_eq_ok {width n : Nat} {b : List UInt8} (h : number width b = .ok n) :
    b = digits n ∧ n < 256 ^ width := by
  unfold number at h
  split_ifs at h with hlen hzero
  obtain rfl : ofDigits b = n := Except.ok.inj h
  refine ⟨(digits_ofDigits hzero).symm, (ofDigits_lt b).trans_le ?_⟩
  exact Nat.pow_le_pow_right (by decide) (Nat.le_of_not_lt hlen)

/-! ## Headers -/

section

variable {α β : Type} {input rest : List UInt8}

lemma run_bind_eq_ok {p : Reader α} {q : α → Reader β} {b : β}
    (h : (p >>= q).run input = .ok (b, rest)) :
    ∃ a mid, p.run input = .ok (a, mid) ∧ (q a).run mid = .ok (b, rest) := by
  rw [run_bind] at h
  cases hp : p.run input with
  | error e =>
    rw [hp] at h
    cases h
  | ok x =>
    rw [hp] at h
    exact ⟨x.1, x.2, rfl, h⟩

lemma take_eq_ok {count : Nat} {b : List UInt8} (h : (take count).run input = .ok (b, rest)) :
    input = b ++ rest ∧ b.length = count := by
  change take count input = _ at h
  unfold take at h
  split_ifs at h with hlen
  cases h
  exact ⟨(List.take_append_drop count input).symm, List.length_take_of_le (Nat.le_of_not_lt hlen)⟩

lemma lift_eq_ok {x : Except Error α} {a : α}
    (h : (liftM x : Reader α).run input = .ok (a, rest)) : x = .ok a ∧ input = rest := by
  cases x with
  | error e => cases h
  | ok a' =>
    cases h
    exact ⟨rfl, rfl⟩

lemma longLength_eq_ok {size n : Nat} (h : (longLength size).run input = .ok (n, rest)) :
    input = digits n ++ rest ∧ (digits n).length = size ∧ ¬n < 56 := by
  unfold longLength at h
  obtain ⟨b, mid, htake, hnumber⟩ := run_bind_eq_ok h
  obtain ⟨m, mid', hlift, hcheck⟩ := run_bind_eq_ok hnumber
  obtain ⟨hm, rfl⟩ := lift_eq_ok hlift
  obtain ⟨hinput, hlen⟩ := take_eq_ok htake
  rw [(number_eq_ok hm).1] at hinput hlen
  split_ifs at hcheck with hlong
  · cases hcheck
  · cases hcheck
    exact ⟨hinput, hlen, hlong⟩

/-- A header stands in front of its payload the way it is written, unless the payload is a byte below
128, which has none. -/
lemma rawHeader_eq_ok {h : Header} (hread : rawHeader.run input = .ok (h, rest)) :
    (input = h.encode ++ rest ∧ (h = ⟨false, 1⟩ → ∃ x tail, rest = x :: tail ∧ ¬x < 0x80)) ∨
      (h = ⟨false, 1⟩ ∧ input = rest ∧ ∃ x tail, input = x :: tail ∧ x < 0x80) := by
  have hlong {isList : Bool} {size : Nat} {b : UInt8} {tail : List UInt8}
      (hlength : (Header.mk isList <$> longLength size).run tail = .ok (h, rest))
      (hfirst : b.toNat = (if isList then 0xc0 else 0x80) + 55 + size) :
      b :: tail = h.encode ++ rest ∧ (h = ⟨false, 1⟩ → ∃ x tail, rest = x :: tail ∧ ¬x < 0x80) := by
    rw [map_eq_pure_bind] at hlength
    obtain ⟨n, mid, hn, hpure⟩ := run_bind_eq_ok hlength
    cases hpure
    obtain ⟨rfl, hsize, hn⟩ := longLength_eq_ok hn
    refine ⟨?_, fun hone => ?_⟩
    · unfold Header.encode
      dsimp only
      rw [if_neg hn, hsize, ← hfirst, UInt8.ofNat_toNat]
      rfl
    · cases hone
      omega
  have hshort {isList : Bool} {n : Nat} {b : UInt8} (hn : n < 56)
      (hfirst : b.toNat = (if isList then 0xc0 else 0x80) + n) (tail : List UInt8) :
      b :: tail = (Header.mk isList n).encode ++ tail := by
    unfold Header.encode
    dsimp only
    rw [if_pos hn, ← hfirst, UInt8.ofNat_toNat]
    rfl
  change rawHeader input = _ at hread
  cases input with
  | nil => cases hread
  | cons b tail =>
    have hb := b.toNat_lt
    unfold rawHeader at hread
    dsimp only at hread
    split_ifs at hread with hself hstring hone hlongString hlist
    · cases hread
      exact .inr ⟨rfl, rfl, b, tail, rfl, hself⟩
    · cases tail with
      | nil => cases hread
      | cons x tail =>
        dsimp only at hread
        split_ifs at hread with hx
        cases hread
        exact .inl ⟨hshort (by decide) hone _, fun _ => ⟨x, tail, rfl, hx⟩⟩
    · cases hread
      refine .inl ⟨hshort (by omega) ?_ _, fun heq => ?_⟩
      · change b.toNat = 0x80 + (b.toNat - 0x80)
        omega
      · have hlength := congrArg Header.length heq
        dsimp only at hlength
        omega
    · exact .inl (hlong hread (by rw [if_neg Bool.false_ne_true]; omega))
    · cases hread
      refine .inl ⟨hshort (by omega) ?_ _, fun heq => ?_⟩
      · change b.toNat = 0xc0 + (b.toNat - 0xc0)
        omega
      · cases congrArg Header.isList heq
    · exact .inl (hlong hread (by rw [if_pos rfl]; omega))

/-- The payload that a header announces is there. -/
lemma header_eq_ok {h : Header} (hread : header.run input = .ok (h, rest)) :
    rawHeader.run input = .ok (h, rest) ∧ h.length ≤ rest.length := by
  unfold header at hread
  obtain ⟨h', mid, hraw, hcheck⟩ := run_bind_eq_ok hread
  obtain ⟨input', mid', hget, hcheck⟩ := run_bind_eq_ok hcheck
  cases hget
  split_ifs at hcheck with hlen
  · cases hcheck
  · cases hcheck
    exact ⟨hraw, Nat.le_of_not_lt hlen⟩

/-! ## Items -/

lemma string_eq_ok {b : List UInt8} (h : string.run input = .ok (b, rest)) :
    input = encodeString b ++ rest := by
  unfold string at h
  obtain ⟨⟨isList, n⟩, mid, hheader, htake⟩ := run_bind_eq_ok h
  obtain ⟨hraw, -⟩ := header_eq_ok hheader
  split_ifs at htake with hlist
  · cases htake
  · obtain ⟨rfl, rfl⟩ := take_eq_ok htake
    obtain rfl : isList = false := Bool.eq_false_of_not_eq_true hlist
    rcases rawHeader_eq_ok hraw with ⟨rfl, hsingle⟩ | ⟨hone, rfl, x, tail, hinput, hx⟩
    · rw [← List.append_assoc]
      congr 1
      unfold encodeString
      split
      · rename_i x
        obtain ⟨y, tail, htail, hy⟩ := hsingle rfl
        obtain rfl : x = y := (List.cons.inj htail).1
        rw [if_neg hy]
        rfl
      · rfl
    · obtain ⟨y, rfl⟩ := List.length_eq_one_iff.1 (congrArg Header.length hone)
      obtain rfl : y = x := (List.cons.inj hinput).1
      unfold encodeString
      dsimp only
      rw [if_pos hx]

lemma list_eq_ok {items : Reader α} {write : α → List (List UInt8)} {a : α}
    (hitems : ∀ {input rest a}, items.run input = .ok (a, rest) → input = (write a).flatten ++ rest)
    (h : (list items).run input = .ok (a, rest)) : input = encodeList (write a) ++ rest := by
  unfold list at h
  obtain ⟨⟨isList, n⟩, mid, hheader, hbody⟩ := run_bind_eq_ok h
  obtain ⟨hraw, -⟩ := header_eq_ok hheader
  split_ifs at hbody with hlist
  · obtain ⟨before, mid', hget, hbody⟩ := run_bind_eq_ok hbody
    cases hget
    obtain ⟨a', mid', hread, hbody⟩ := run_bind_eq_ok hbody
    obtain ⟨after, mid'', hget, hbody⟩ := run_bind_eq_ok hbody
    cases hget
    dsimp only at hbody hlist
    split_ifs at hbody with hgot
    · cases hbody
      subst hlist
      have hmid := hitems hread
      have hlength : n = (write a).flatten.length := by
        rw [← hgot, hmid, List.length_append]
        omega
      rcases rawHeader_eq_ok hraw with ⟨hinput, -⟩ | ⟨hone, -⟩
      · rw [hinput, hmid, hlength, encodeList, List.append_assoc]
      · cases hone
    · cases hbody
  · cases hbody

lemma exact_eq_ok {item : Reader α} {a : α} (h : exact item input = .ok a) :
    item.run input = .ok (a, []) := by
  unfold exact at h
  cases hrun : item.run input with
  | error e =>
    rw [hrun] at h
    cases h
  | ok x =>
    obtain ⟨a', rest⟩ := x
    rw [hrun] at h
    change (if rest.isEmpty then pure a' else throw Error.unexpectedLength : Except Error α) = _ at h
    split_ifs at h with hempty
    cases h
    rw [List.isEmpty_iff.1 hempty]

/-! ## Cut off lists -/

lemma run_bind_error {p : Reader α} {q : α → Reader β} {e : Error} (h : p.run input = .error e) :
    (p >>= q).run input = .error e := by
  rw [run_bind, h]

lemma take_of_lt {count : Nat} (h : input.length < count) :
    (take count).run input = .error .inputTooShort := if_pos h

/-- The header of a list that is cut off within the header. -/
lemma rawHeader_take {n length : Nat} (hlength : length < 256 ^ 8)
    (h : n < (Header.encode ⟨true, length⟩).length) :
    rawHeader.run ((Header.encode ⟨true, length⟩).take n) = .error .inputTooShort := by
  cases n with
  | zero => rfl
  | succ n =>
    unfold Header.encode at h ⊢
    dsimp only at h ⊢
    by_cases hshort : length < 56
    · rw [if_pos hshort, List.length_singleton] at h
      omega
    · rw [if_neg hshort, List.length_cons] at h
      rw [if_neg hshort, List.take_succ_cons, rawHeader_long _ (length_digits_pos (by omega))
        (length_digits_le hlength), map_eq_pure_bind, longLength]
      refine run_bind_error (run_bind_error (take_of_lt ?_))
      rw [List.length_take]
      omega

/-- A list that is cut off anywhere. -/
lemma list_take {items : Reader α} {written : List (List UInt8)} {n : Nat}
    (hlength : written.flatten.length < 256 ^ 8) (h : n < (encodeList written).length) :
    (list items).run ((encodeList written).take n) = .error .inputTooShort := by
  unfold encodeList at h ⊢
  refine run_bind_error ?_
  rw [List.length_append] at h
  rw [List.take_append]
  generalize hheader : Header.encode ⟨true, written.flatten.length⟩ = bytes at h ⊢
  rcases Nat.lt_or_ge n bytes.length with hlt | hle
  · rw [Nat.sub_eq_zero_of_le hlt.le, List.take_zero, List.append_nil]
    subst hheader
    exact run_bind_error (rawHeader_take hlength hlt)
  · have hshort : (written.flatten.take (n - bytes.length)).length < written.flatten.length := by
      rw [List.length_take]
      omega
    rw [List.take_of_length_le hle]
    subst hheader
    unfold header
    rw [run_bind_ok (rawHeader_list hlength _)]
    change (if _ < written.flatten.length then throw Error.inputTooShort else pure _ :
      Reader Header).run _ = _
    rw [if_pos hshort]
    rfl

/-! ## Lists of strings -/

lemma length_le_length_encodeString (b : List UInt8) : b.length ≤ (encodeString b).length := by
  unfold encodeString
  split
  · split
    · exact le_rfl
    · rw [List.length_append]
      exact Nat.le_add_left _ _
  · rw [List.length_append]
    exact Nat.le_add_left _ _

/-- The payload of a list can be told from the list. -/
lemma flatten_eq_of_encodeList_eq {x y : List (List UInt8)} (hx : x.flatten.length < 256 ^ 8)
    (hy : y.flatten.length < 256 ^ 8) (h : encodeList x = encodeList y) : x.flatten = y.flatten := by
  have hread := rawHeader_list hx x.flatten
  rw [← encodeList, h, encodeList, rawHeader_list hy y.flatten] at hread
  exact (Prod.mk.inj (Except.ok.inj hread)).2.symm

/-- The strings can be told from what is written of them, one after the other. -/
lemma map_encodeString_inj {x y : List (List UInt8)} (hlength : x.length = y.length)
    (hshort : (x.map encodeString).flatten.length < 256 ^ 8)
    (h : (x.map encodeString).flatten = (y.map encodeString).flatten) : x = y := by
  induction x generalizing y with
  | nil => exact (List.length_eq_zero_iff.1 hlength.symm).symm
  | cons b x ih =>
    cases y with
    | nil => cases hlength
    | cons b' y =>
      -- Both strings are short enough to be read back from the front of the same bytes.
      simp only [List.map_cons, List.flatten_cons, List.length_append] at hshort h
      have hlen := length_le_length_encodeString b
      have hlen' := length_le_length_encodeString b'
      have hsum := congrArg List.length h
      rw [List.length_append, List.length_append] at hsum
      have hread := string_encodeString (b := b) (by omega) (x.map encodeString).flatten
      rw [h, string_encodeString (by omega)] at hread
      have hpair := Except.ok.inj hread
      rw [(Prod.mk.inj hpair).1, ih (Nat.succ.inj hlength) (by omega) (Prod.mk.inj hpair).2.symm]

/-! ## Numbers and hashes -/

section

variable {b : List UInt8}

lemma toNat_ofDigits64 (h : b.length ≤ 8) : (UInt64.ofNat (ofDigits b)).toNat = ofDigits b := by
  have hlt : ofDigits b < 256 ^ 8 := (ofDigits_lt b).trans_le (Nat.pow_le_pow_right (by decide) h)
  exact UInt64.toNat_ofNat_of_lt' hlt

lemma toNat_ofDigits256 (h : b.length ≤ 32) :
    (BitVec.ofNat 256 (ofDigits b)).toNat = ofDigits b := by
  have hlt : ofDigits b < 256 ^ 32 := (ofDigits_lt b).trans_le (Nat.pow_le_pow_right (by decide) h)
  rw [BitVec.toNat_ofNat]
  exact Nat.mod_eq_of_lt hlt

lemma ofWord_ofDigits (h : b.length = 32) :
    (Bytes.ofWord (BitVec.ofNat 256 (ofDigits b))).toList = b := by
  have hfit := Bytes.ofNat_toNat b.toArray
  rw [List.size_toArray, h, ← ofDigits_eq] at hfit
  rw [Bytes.ofWord, toNat_ofDigits256 h.le, hfit]

end

lemma nat64_eq_ok {n : UInt64} (h : nat64.run input = .ok (n, rest)) :
    input = encodeNat n.toNat ++ rest := by
  unfold nat64 at h
  obtain ⟨b, mid, hstring, hnumber⟩ := run_bind_eq_ok h
  obtain ⟨m, mid', hlift, hpure⟩ := run_bind_eq_ok hnumber
  obtain ⟨hm, rfl⟩ := lift_eq_ok hlift
  cases hpure
  obtain ⟨rfl, hlt⟩ := number_eq_ok hm
  have hvalue : (UInt64.ofNat m).toNat = m := UInt64.toNat_ofNat_of_lt' hlt
  rw [hvalue]
  exact string_eq_ok hstring

lemma word_eq_ok {w : Word} (h : word.run input = .ok (w, rest)) :
    input = encodeNat w.toNat ++ rest := by
  unfold word at h
  obtain ⟨b, mid, hstring, hcheck⟩ := run_bind_eq_ok h
  split_ifs at hcheck with hzero hlen
  · cases hcheck
  · cases hcheck
  · cases hcheck
    rw [toNat_ofDigits256 (Nat.le_of_not_lt hlen), encodeNat, digits_ofDigits hzero]
    exact string_eq_ok hstring

lemma hash_eq_ok {w : Hash} (h : hash.run input = .ok (w, rest)) :
    input = encodeHash w ++ rest := by
  unfold hash at h
  obtain ⟨b, mid, hstring, hcheck⟩ := run_bind_eq_ok h
  split_ifs at hcheck with hlen
  · cases hcheck
    rw [encodeHash, ofWord_ofDigits hlen]
    exact string_eq_ok hstring
  · cases hcheck

end

end Evm.Rlp

namespace Evm.Account

variable {input rest : List UInt8} {a : Account}

lemma fields_eq_ok (h : fields.run input = .ok (a, rest)) : input = a.items.flatten ++ rest := by
  unfold fields at h
  obtain ⟨nonce, input₁, hnonce, h₁⟩ := Rlp.run_bind_eq_ok h
  obtain ⟨balance, input₂, hbalance, h₂⟩ := Rlp.run_bind_eq_ok h₁
  obtain ⟨root, input₃, hroot, h₃⟩ := Rlp.run_bind_eq_ok h₂
  obtain ⟨code, input₄, hcode, h₄⟩ := Rlp.run_bind_eq_ok h₃
  cases h₄
  rw [Rlp.nat64_eq_ok hnonce, Rlp.word_eq_ok hbalance, Rlp.hash_eq_ok hroot, Rlp.hash_eq_ok hcode]
  simp only [items, List.flatten_cons, List.flatten_nil, List.append_nil, List.append_assoc]

/-- A record is read from the front of its input exactly if it is written there. -/
lemma list_fields_iff : (Rlp.list fields).run input = .ok (a, rest) ↔ input = a.encode ++ rest := by
  constructor
  · exact Rlp.list_eq_ok fields_eq_ok
  · rintro rfl
    exact a.list_fields_encode rest

lemma decode_iff : decode input = .ok a ↔ input = a.encode := by
  constructor
  · intro h
    rw [list_fields_iff.1 (Rlp.exact_eq_ok h), List.append_nil]
  · rintro rfl
    exact a.decode_encode

lemma decode_append (a : Account) (rest : List UInt8) :
    decode (a.encode ++ rest) = if rest = [] then .ok a else .error .unexpectedLength := by
  unfold decode Rlp.exact
  rw [a.list_fields_encode rest]
  change (if rest.isEmpty then pure a else throw Rlp.Error.unexpectedLength :
    Except Rlp.Error Account) = _
  simp only [List.isEmpty_iff]
  rfl

/-- Wherever a record is cut off, the end is missed. -/
lemma decode_take (a : Account) (n : Nat) :
    decode (a.encode.take n) = if n < a.encode.length then .error .inputTooShort else .ok a := by
  split_ifs with hlt
  · unfold decode Rlp.exact
    have hlength : a.items.flatten.length < 256 ^ 8 :=
      a.length_flatten_items_le.trans_lt (by decide)
    change ((Rlp.list fields).run ((Rlp.encodeList a.items).take n) >>= _) = _
    rw [Rlp.list_take hlength hlt]
    rfl
  · rw [List.take_of_length_le (Nat.le_of_not_lt hlt), a.decode_encode]

/-! ## Fields of other forms -/

/-- The strings in a record. -/
def strings (a : Account) : List (List UInt8) :=
  [Rlp.digits a.nonce.toNat, Rlp.digits a.balance.toNat, (Bytes.ofWord a.storageRoot).toList,
    (Bytes.ofWord a.codeHash).toList]

lemma encode_eq (a : Account) : a.encode = Rlp.encodeList (a.strings.map Rlp.encodeString) := rfl

lemma strings_iff (nonce balance root code : List UInt8) :
    (∃ a : Account, [nonce, balance, root, code] = a.strings) ↔
      (nonce.length ≤ 8 ∧ nonce.head? ≠ some 0) ∧ (balance.length ≤ 32 ∧ balance.head? ≠ some 0) ∧
        root.length = 32 ∧ code.length = 32 := by
  constructor
  · rintro ⟨a, h⟩
    simp only [strings, List.cons.injEq, and_true] at h
    obtain ⟨hnonce, hbalance, hroot, hcode⟩ := h
    have hlt : a.nonce.toNat < 256 ^ 8 := a.nonce.toNat_lt
    have hlt' : a.balance.toNat < 256 ^ 32 := a.balance.isLt
    rw [hnonce, hbalance, hroot, hcode]
    exact ⟨⟨Rlp.length_digits_le hlt, Rlp.head?_digits_ne _⟩,
      ⟨Rlp.length_digits_le hlt', Rlp.head?_digits_ne _⟩, Rlp.length_ofWord _, Rlp.length_ofWord _⟩
  · rintro ⟨⟨hnonce, hnonce'⟩, ⟨hbalance, hbalance'⟩, hroot, hcode⟩
    refine ⟨⟨UInt64.ofNat (Rlp.ofDigits nonce), BitVec.ofNat 256 (Rlp.ofDigits balance),
      BitVec.ofNat 256 (Rlp.ofDigits root), BitVec.ofNat 256 (Rlp.ofDigits code)⟩, ?_⟩
    rw [strings, Rlp.toNat_ofDigits64 hnonce, Rlp.toNat_ofDigits256 hbalance,
      Rlp.digits_ofDigits hnonce', Rlp.digits_ofDigits hbalance', Rlp.ofWord_ofDigits hroot,
      Rlp.ofWord_ofDigits hcode]

lemma length_encode_le (a : Account) : a.encode.length ≤ 110 := by
  have hpayload := a.length_flatten_items_le
  have hlength : (Rlp.digits a.items.flatten.length).length ≤ 1 :=
    Rlp.length_digits_le (hpayload.trans_lt (by decide))
  change (Rlp.Header.encode ⟨true, a.items.flatten.length⟩ ++ a.items.flatten).length ≤ 110
  unfold Rlp.Header.encode
  dsimp only
  split
  · rw [List.length_append, List.length_singleton]
    omega
  · rw [List.length_append, List.length_cons]
    omega

lemma decode_strings_iff (nonce balance root code : List UInt8) :
    (∃ a, decode (Rlp.encodeList ([nonce, balance, root, code].map Rlp.encodeString)) = .ok a) ↔
      (nonce.length ≤ 8 ∧ nonce.head? ≠ some 0) ∧ (balance.length ≤ 32 ∧ balance.head? ≠ some 0) ∧
        root.length = 32 ∧ code.length = 32 := by
  rw [← strings_iff]
  refine exists_congr fun a => ?_
  rw [decode_iff, encode_eq]
  have hfour : a.strings.length = 4 := rfl
  have hlength : [nonce, balance, root, code].length = a.strings.length := hfour.symm
  generalize [nonce, balance, root, code] = x at hlength ⊢
  have hle := a.length_encode_le
  rw [encode_eq] at hle
  generalize a.strings = y at hlength hle ⊢
  constructor
  · -- What is written of a record is short, so that nothing else that is written so can be longer.
    intro h
    have hshort : (y.map Rlp.encodeString).flatten.length < 256 ^ 8 := by
      rw [Rlp.encodeList, List.length_append] at hle
      omega
    have hshort' : (x.map Rlp.encodeString).flatten.length < 256 ^ 8 := by
      rw [← h, Rlp.encodeList, List.length_append] at hle
      omega
    exact Rlp.map_encodeString_inj hlength hshort' (Rlp.flatten_eq_of_encodeList_eq hshort' hshort h)
  · rintro rfl
    rfl

/-- The stored bytes of an account are read as a record exactly if a flush writes them for it. So each
record has one form, and there is nothing to read where bytes are missing or left over, or where a
number has a zero byte in front or a field is too long or too short. -/
theorem records_canonical (address : Address) :
    (∀ raw a, Table.accounts.decode address raw = .ok a ↔
      BatchOp.ofAccount address (some a) = .put (StoreKey.account address) raw) ∧
    (∀ a, ∃! raw, Table.accounts.decode address raw = .ok a) ∧
    (∀ (a : Account) rest, decode (a.encode ++ rest) =
      if rest = [] then .ok a else .error .unexpectedLength) ∧
    (∀ (a : Account) n, decode (a.encode.take n) =
      if n < a.encode.length then .error .inputTooShort else .ok a) ∧
    ∀ nonce balance root code,
      (∃ a, decode (Rlp.encodeList ([nonce, balance, root, code].map Rlp.encodeString)) = .ok a) ↔
        (nonce.length ≤ 8 ∧ nonce.head? ≠ some 0) ∧
          (balance.length ≤ 32 ∧ balance.head? ≠ some 0) ∧ root.length = 32 ∧ code.length = 32 := by
  have hread (raw : Bytes) (a : Account) :
      Table.accounts.decode address raw = .ok a ↔ raw = a.encode.toArray := by
    change (decode raw.toList).mapError StateError.decode = .ok a ↔ _
    rw [← Array.toList_inj, ← decode_iff]
    cases decode raw.toList with
    | ok a' => exact ⟨fun h => congrArg _ (Except.ok.inj h), fun h => congrArg _ (Except.ok.inj h)⟩
    | error e => exact ⟨nofun, nofun⟩
  refine ⟨fun raw a => ?_, fun a => ⟨a.encode.toArray, (hread _ a).2 rfl, fun raw => (hread raw a).1⟩,
    decode_append, decode_take, decode_strings_iff⟩
  rw [hread, eq_comm, BatchOp.ofAccount, BatchOp.put.injEq]
  exact (and_iff_right rfl).symm

end Evm.Account
