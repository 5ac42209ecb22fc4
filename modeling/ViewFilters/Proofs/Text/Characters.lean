import ViewFilters.History
import ViewFilters.Text.Decimal
import ViewFilters.Text.FormUrl

/-!
# ViewFilters.Proofs.Text.Characters

Which characters written texts are made of.  A query holds letters, digits and
the eight characters `*-._+%=&`, so it has neither the question mark that is
dropped before a query nor a line break; a number holds digits, so it has no
sign.
-/

namespace ViewFilters

/-- What is joined holds the characters of its pieces and the separator. -/
theorem mem_joined {β : Type} {sep x : β} {ps : List (List β)} (h : x ∈ joined sep ps) :
    x = sep ∨ ∃ p ∈ ps, x ∈ p := by
  induction ps with
  | nil => contradiction
  | cons p ps ih =>
      cases ps with
      | nil => exact Or.inr ⟨p, List.mem_cons_self, h⟩
      | cons q ps =>
          rw [joined_cons (by simp)] at h
          obtain h | h := List.mem_append.1 h
          · exact Or.inr ⟨p, List.mem_cons_self, h⟩
          obtain h | h := List.mem_cons.1 h
          · exact Or.inl h
          · exact (ih h).imp_right fun ⟨r, hr, hx⟩ => ⟨r, List.mem_cons_of_mem p hr, hx⟩

/-! ## queries -/

namespace FormUrl

/-- The characters that a written query is made of. -/
def isQueryChar (c : Char) : Bool :=
  isPlain c || c = '+' || c = '%' || c = '=' || c = '&'

theorem all_isQueryChar_escapeByte : ∀ n < 256,
    (escapeByte (UInt8.ofNat n)).all isQueryChar = true := by
  decide +kernel

theorem isQueryChar_of_mem_escape {s : String} {c : Char} (h : c ∈ escape s) :
    isQueryChar c = true := by
  obtain ⟨b, -, hc⟩ := List.mem_flatMap.1 h
  rw [byte_eq_ofNat b] at hc
  exact List.all_eq_true.1 (all_isQueryChar_escapeByte b.toNat b.toNat_lt) c hc

theorem isQueryChar_of_mem_writePair {pair : String × String} {c : Char} (h : c ∈ writePair pair) :
    isQueryChar c = true := by
  obtain h | h := List.mem_append.1 h
  · exact isQueryChar_of_mem_escape h
  · obtain rfl | h := List.mem_cons.1 h
    · decide
    · exact isQueryChar_of_mem_escape h

theorem isQueryChar_of_mem_write {pairs : List (String × String)} {c : Char}
    (h : c ∈ (write pairs).toList) : isQueryChar c = true := by
  rw [write, String.toList_ofList] at h
  obtain rfl | ⟨p, hp, hc⟩ := mem_joined h
  · decide
  · obtain ⟨pair, -, rfl⟩ := List.mem_map.1 hp
    exact isQueryChar_of_mem_writePair hc

end FormUrl

theorem dropQuestionMark_of_notMem {query : String} (h : '?' ∉ query.toList) :
    dropQuestionMark query = query := by
  unfold dropQuestionMark
  split
  · next cs hcs => simp [hcs] at h
  · rfl

/-- A written query does not begin with a question mark. -/
theorem dropQuestionMark_write (pairs : List (String × String)) :
    dropQuestionMark (FormUrl.write pairs) = FormUrl.write pairs := by
  apply dropQuestionMark_of_notMem
  intro h
  have hc := FormUrl.isQueryChar_of_mem_write h
  simp [FormUrl.isQueryChar, FormUrl.isPlain] at hc

/-! ## numbers -/

namespace Decimal

theorem uint32?_digits (n : UInt32) : uint32? (digits n.toNat) = some n := by
  rw [uint32?, natural?_digits, Option.bind_some, if_pos n.toNat_lt, UInt32.ofNat_toNat]

theorem uint64?_digits (n : UInt64) : uint64? (digits n.toNat) = some n := by
  rw [uint64?, natural?_digits, Option.bind_some, if_pos n.toNat_lt, UInt64.ofNat_toNat]

/-- Only zero is written with a zero in front. -/
theorem eq_nil_of_digits_eq_zero_cons {n : Nat} {cs : List Char} (h : digits n = '0' :: cs) :
    cs = [] := by
  induction n using Nat.strongRecOn generalizing cs with
  | ind n ih =>
      rw [digits] at h
      split at h
      · exact (List.cons.inj h).2.symm
      · next hn =>
        -- the digits before the last are those of a number that is not zero
        obtain ⟨d, ds, hds⟩ := List.exists_cons_of_ne_nil (digits_ne_nil (n / 10))
        rw [hds, List.cons_append, List.cons.injEq] at h
        have hnil : ds = [] := ih (n / 10) (by omega) (hds.trans (by rw [h.1]))
        have hvalue := value_digits (n / 10)
        rw [hds, h.1, hnil] at hvalue
        have hzero : value ['0'] = 0 := by decide
        omega

/-- The digits of a number have no sign before them. -/
theorem plus_notMem_digits (n : Nat) : '+' ∉ digits n := by
  intro h
  have hd := List.all_eq_true.1 (all_isDigit_digits n) '+' h
  simp [isDigit] at hd

end Decimal

end ViewFilters
