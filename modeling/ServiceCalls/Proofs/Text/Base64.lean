import ServiceCalls.Text.Base64
import ServiceCalls.Proofs.Text.Octets

/-
  Base64 that is read back.

  Four digits are a number of three octets.  The last group
  may stand for fewer octets: it is padded, and the digits
  before the padding have no bits that the octets lack.

  Key definitions include:
    * `Text.base64Value?`
    * `Text.base64Number?`
    * `Text.base64Decode?`

  Main declarations:
    * `Text.base64Number?_map`
    * `Text.base64Decode?_base64Encode`
-/

namespace ServiceCalls

namespace Text

------------------------------------------------------------
-- Reading Digits
------------------------------------------------------------

/- The number below 64 that a digit stands for. -/
def base64Value? (c : Char) : Option Nat :=
  if 'A' ≤ c ∧ c ≤ 'Z' then some (c.toNat - 65)
  else if 'a' ≤ c ∧ c ≤ 'z' then some (c.toNat - 71)
  else if '0' ≤ c ∧ c ≤ '9' then some (c.toNat + 4)
  else if c = '+' then some 62
  else if c = '/' then some 63
  else none

/- The number that digits make, the highest digit first. -/
def base64Number? (digits : List Char) : Option Nat :=
  digits.foldlM
    (fun n c => (base64Value? c).map fun v => 64 * n + v) 0

/-
  The octets of digits.  Padding is allowed at the end only,
  and bits that no octet takes have to be zero.
-/
def base64Decode? : List Char → Option Bytes
  | [] => some []
  | [a, b, '=', '='] => do
      let n ← base64Number? [a, b]
      if n % 16 = 0 then some [.ofNat (n / 16)] else none
  | [a, b, c, '='] => do
      let n ← base64Number? [a, b, c]
      if n % 4 = 0 then
        some [.ofNat (n / 1024), .ofNat (n / 4)]
      else none
  | a :: b :: c :: d :: rest => do
      let n ← base64Number? [a, b, c, d]
      (base64Decode? rest).map fun bytes =>
        .ofNat (n / 65536) :: .ofNat (n / 256) ::
          .ofNat n :: bytes
  | _ => none

------------------------------------------------------------
-- Digits Read Back
------------------------------------------------------------

theorem base64Value?_base64Digit
    {n : Nat}
    (h : n < 64) :
    base64Value? (base64Digit n) = some n := by
  revert n
  decide

theorem base64Digit_ne_pad
    {n : Nat}
    (h : n < 64) :
    base64Digit n ≠ '=' := by
  intro hPad
  have hValue := base64Value?_base64Digit h
  rw [hPad] at hValue
  cases hValue

/- Digits of numbers make the number that these make. -/
theorem base64Number?_map
    {ns : List Nat}
    (h : ∀ n ∈ ns, n < 64) :
    base64Number? (ns.map base64Digit) =
      some (ns.foldl (fun total n => 64 * total + n) 0) := by
  unfold base64Number?
  generalize 0 = total
  induction ns generalizing total with
  | nil => rfl
  | cons n rest ih =>
      rw [List.forall_mem_cons] at h
      rw [List.map_cons, List.foldlM_cons,
        base64Value?_base64Digit h.1, List.foldl_cons]
      exact ih h.2 _

------------------------------------------------------------
-- Groups
------------------------------------------------------------

/- The octet of a number is its lowest eight bits. -/
theorem ofNat_mul_add (high : Nat) (b : UInt8) :
    UInt8.ofNat (high * 256 + b.toNat) = b := by
  rw [← UInt8.toNat_inj, UInt8.toNat_ofNat',
    Nat.mul_add_mod_self_right, Nat.mod_eq_of_lt b.toNat_lt]

theorem base64Decode?_one
    {x y : Nat}
    {octet : UInt8}
    (hx : x < 64)
    (hy : y < 64)
    (hValue : 64 * x + y = octet.toNat * 16) :
    base64Decode? [base64Digit x, base64Digit y, '=', '='] =
      some [octet] := by
  have hNumber :=
    @base64Number?_map [x, y] (by simp [hx, hy])
  simp only [List.map_cons, List.map_nil, List.foldl_cons,
    List.foldl_nil, Nat.mul_zero, Nat.zero_add,
    hValue] at hNumber
  rw [base64Decode?, hNumber, Option.bind_eq_bind,
    Option.bind_some, if_pos (Nat.mul_mod_left _ 16),
    Nat.mul_div_cancel _ (by decide), UInt8.ofNat_toNat]

theorem base64Decode?_two
    {x y z : Nat}
    {first second : UInt8}
    (hx : x < 64)
    (hy : y < 64)
    (hz : z < 64)
    (hValue :
      64 * (64 * x + y) + z =
        (first.toNat * 256 + second.toNat) * 4) :
    base64Decode?
        [base64Digit x, base64Digit y, base64Digit z, '='] =
      some [first, second] := by
  have hNumber :=
    @base64Number?_map [x, y, z] (by simp [hx, hy, hz])
  simp only [List.map_cons, List.map_nil, List.foldl_cons,
    List.foldl_nil, Nat.mul_zero, Nat.zero_add,
    hValue] at hNumber
  have hHigh :
      (first.toNat * 256 + second.toNat) * 4 / 1024 =
        first.toNat := by
    have := second.toNat_lt
    omega
  rw [base64Decode?, hNumber, Option.bind_eq_bind,
    Option.bind_some, if_pos (Nat.mul_mod_left _ 4), hHigh,
    Nat.mul_div_cancel _ (by decide), UInt8.ofNat_toNat,
    ofNat_mul_add]
  exact base64Digit_ne_pad hz

theorem base64Decode?_group
    {x y z w : Nat}
    {first second third : UInt8}
    (hx : x < 64)
    (hy : y < 64)
    (hz : z < 64)
    (hw : w < 64)
    (hValue :
      64 * (64 * (64 * x + y) + z) + w =
        (first.toNat * 256 + second.toNat) * 256 +
          third.toNat)
    (rest : List Char) :
    base64Decode?
        (base64Digit x :: base64Digit y :: base64Digit z ::
          base64Digit w :: rest) =
      (base64Decode? rest).map fun bytes =>
        first :: second :: third :: bytes := by
  have hNumber :=
    @base64Number?_map [x, y, z, w]
      (by simp [hx, hy, hz, hw])
  simp only [List.map_cons, List.map_nil, List.foldl_cons,
    List.foldl_nil, Nat.mul_zero, Nat.zero_add,
    hValue] at hNumber
  have hSecond :
      ((first.toNat * 256 + second.toNat) * 256 +
        third.toNat) / 256 =
        first.toNat * 256 + second.toNat := by
    have := third.toNat_lt
    omega
  have hFirst :
      ((first.toNat * 256 + second.toNat) * 256 +
        third.toNat) / 65536 = first.toNat := by
    have := second.toNat_lt
    have := third.toNat_lt
    omega
  have hLast := base64Digit_ne_pad hw
  rw [base64Decode?, hNumber, Option.bind_eq_bind,
    Option.bind_some, hFirst, hSecond, ofNat_mul_add,
    ofNat_mul_add, UInt8.ofNat_toNat]
  · exact fun _ h _ => hLast h
  · exact fun h _ => hLast h

/-
  Octets are read back from their digits.  The cases are those
  of the encoder: nothing left, one or two octets left for a
  padded group, and a full group before the rest.
-/
theorem base64Decode?_base64Encode (bytes : Bytes) :
    base64Decode? (base64Encode bytes) = some bytes := by
  induction bytes using base64Encode.induct with
  | case1 => rfl
  | case2 a =>
      have hA := a.toNat_lt
      rw [base64Encode]
      apply base64Decode?_one <;> omega
  | case3 a b =>
      have hA := a.toNat_lt
      have hB := b.toNat_lt
      rw [base64Encode]
      apply base64Decode?_two <;> omega
  | case4 a b c rest ih =>
      have hA := a.toNat_lt
      have hB := b.toNat_lt
      have hC := c.toNat_lt
      rw [base64Encode]
      refine (base64Decode?_group ?_ ?_ ?_ ?_ ?_ _).trans
        (congrArg (Option.map _) ih)
      all_goals omega

/- One octet ends in two signs of padding. -/
example :
    base64Decode? "TQ==".toList = some [77] := by
  decide +kernel

end Text
end ServiceCalls
