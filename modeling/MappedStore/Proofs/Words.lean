import Mathlib.Algebra.BigOperators.Fin
import Mathlib.Tactic.Ring
import MappedStore.Value

/-!
# Words in a value

A value is read in little-endian words at any offset of 64 bits. A read looks at a window that the
value covers (`Value.Covers`), or it is refused; what it promises at any width is
`Value.ReadsExactly`. Neighbouring windows make up the one that spans both, so a long word is
composed of two short ones, and a word that is spelled out among other bytes is read back
(`Value.words_exact`).
-/

namespace MappedStore

/-! ## Numbers in base 256 -/

namespace Bytes

/-- A number is spelled by as many bytes as it is asked to have. -/
theorem length_ofNat (width number : Nat) : (ofNat width number).length = width := by
  induction width generalizing number with
  | zero => rfl
  | succ width ih => rw [ofNat, List.length_cons, ih]

/-- The bytes of a number spell what is left of it at their width. -/
theorem toNat_ofNat (width number : Nat) : toNat (ofNat width number) = number % 256 ^ width := by
  induction width generalizing number with
  | zero => exact (Nat.mod_one number).symm
  | succ width ih =>
      calc toNat (ofNat (width + 1) number)
          = number % 256 + 256 * (number / 256 % 256 ^ width) := by
            rw [ofNat, toNat, ih, UInt8.toNat_ofNat']
        _ = number % (256 * 256 ^ width) := Nat.mod_mul.symm
        _ = number % 256 ^ (width + 1) := by rw [pow_succ']

/-- A byte string spells a number that fits into its length. -/
theorem toNat_lt (bytes : Bytes) : toNat bytes < 256 ^ bytes.length := by
  induction bytes with
  | nil => exact Nat.one_pos
  | cons byte rest ih =>
      have hbyte : byte.toNat < 256 := byte.toNat_lt
      rw [toNat, List.length_cons, pow_succ]
      omega

/-- Bytes that follow others count for as much as these can spell. -/
theorem toNat_append (front rest : Bytes) :
    toNat (front ++ rest) = toNat front + 256 ^ front.length * toNat rest := by
  induction front with
  | nil => simp [toNat]
  | cons byte front ih =>
      rw [List.cons_append, toNat, toNat, ih, List.length_cons]
      ring

/-- What a part of a byte string spells, byte by byte. -/
theorem toNat_take_drop {data : Bytes} {start width : Nat} (h : start + width ≤ data.length) :
    toNat ((data.drop start).take width)
      = ∑ i : Fin width, data[start + i].toNat * 256 ^ i.val := by
  induction width generalizing start with
  | zero => rfl
  | succ width ih =>
      have hfirst : start < data.length := by omega
      have hrest : start + 1 + width ≤ data.length := by omega
      rw [List.drop_eq_getElem_cons hfirst, List.take_succ_cons, toNat, ih hrest,
        Fin.sum_univ_succ, Finset.mul_sum]
      -- the weights in the rest are those of the next places, divided by 256
      congr 1
      · simp
      · refine Finset.sum_congr rfl fun i _ ↦ ?_
        simp only [Fin.val_succ, pow_succ, Nat.add_right_comm start 1, Nat.add_assoc]
        ring

end Bytes

namespace Value

variable {value : Value} {offset : UInt64} {width number : Nat} {bytes : Bytes}

/-! ## Windows -/

/-- Whether the window at an offset lies within a value. Its end must be an offset, too. -/
def Covers (value : Value) (offset : UInt64) (width : Nat) : Prop :=
  offset.toNat + width < UInt64.size ∧ offset.toNat + width ≤ value.length

/-- If the length of a value is a number of 64 bits, then so is the end of every window within. -/
theorem covers_iff (hlength : value.length < UInt64.size) :
    value.Covers offset width ↔ offset.toNat + width ≤ value.length :=
  ⟨And.right, fun hend ↦ ⟨Nat.lt_of_le_of_lt hend hlength, hend⟩⟩

/-- The bytes in a window that the value covers. -/
theorem window_of_covers (h : value.Covers offset width) :
    value.window offset width = .ok ((value.data.drop offset.toNat).take width) := by
  obtain ⟨hend, hwithin⟩ := h
  have hslice : slice value.data offset.toNat (offset.toNat + width)
      = some ((value.data.drop offset.toNat).take width) := by
    rw [slice, if_pos ⟨Nat.le_add_right .., hwithin⟩, Nat.add_sub_cancel_left]
  rw [window, checkedEnd, if_pos hend, Option.bind_some, hslice]

/-- A window that the value does not cover is refused. -/
theorem window_of_not_covers (h : ¬ value.Covers offset width) :
    value.window offset width = .error (.outOfBounds offset.toNat width value.length) := by
  unfold window checkedEnd
  -- the sum is an offset and the slice does not exist, or there is no sum to slice up to
  split_ifs with hend
  · have hslice : slice value.data offset.toNat (offset.toNat + width) = none :=
      if_neg fun hwithin ↦ h ⟨hend, hwithin.2⟩
    rw [Option.bind_some, hslice]
  · rfl

/-- A window is given exactly if the value covers it. -/
theorem window_eq_ok_iff : value.window offset width = .ok bytes ↔
    value.Covers offset width ∧ bytes = (value.data.drop offset.toNat).take width := by
  by_cases h : value.Covers offset width
  · rw [window_of_covers h, Except.ok.injEq, eq_comm]
    exact (and_iff_right h).symm
  · rw [window_of_not_covers h]
    exact ⟨nofun, fun hcovers ↦ absurd hcovers.1 h⟩

/-- A window is as wide as it was asked for. -/
theorem length_window (h : value.window offset width = .ok bytes) : bytes.length = width := by
  obtain ⟨⟨-, hwithin⟩, rfl⟩ := window_eq_ok_iff.mp h
  unfold length at hwithin
  rw [List.length_take, List.length_drop]
  omega

/-- The end of a window that the value covers is an offset. -/
theorem toNat_add_of_covers (h : value.Covers offset width) :
    (offset + UInt64.ofNat width).toNat = offset.toNat + width := by
  have hend := h.1
  have hwidth : width < UInt64.size := by omega
  rw [UInt64.toNat_add, UInt64.toNat_ofNat_of_lt' hwidth, Nat.mod_eq_of_lt hend]

/-- A window is made up of two neighbouring ones. -/
theorem window_add (first second : Nat) :
    value.window offset (first + second) = .ok bytes ↔
      ∃ front rest, value.window offset first = .ok front ∧
        value.window (offset + UInt64.ofNat first) second = .ok rest ∧ bytes = front ++ rest := by
  simp only [window_eq_ok_iff]
  constructor
  · rintro ⟨⟨hend, hwithin⟩, rfl⟩
    have hfirst : value.Covers offset first := ⟨by omega, by omega⟩
    have hmiddle := toNat_add_of_covers hfirst
    have hsecond : value.Covers (offset + UInt64.ofNat first) second := ⟨by omega, by omega⟩
    refine ⟨_, _, ⟨hfirst, rfl⟩, ⟨hsecond, rfl⟩, ?_⟩
    rw [hmiddle, ← List.drop_drop, List.take_add]
  · rintro ⟨front, rest, ⟨hfirst, rfl⟩, ⟨⟨hend, hwithin⟩, rfl⟩, rfl⟩
    rw [toNat_add_of_covers hfirst] at hend hwithin ⊢
    refine ⟨⟨by omega, by omega⟩, ?_⟩
    rw [← List.drop_drop, List.take_add]

/-- A window that shows the bytes between others. -/
theorem window_between {front middle rest : Bytes} (hmiddle : middle.length = width)
    (h : front.length + width < UInt64.size) :
    window ⟨front ++ middle ++ rest⟩ (UInt64.ofNat front.length) width = .ok middle := by
  have hoffset : (UInt64.ofNat front.length).toNat = front.length :=
    UInt64.toNat_ofNat_of_lt' (by omega)
  rw [window_eq_ok_iff, Covers, hoffset]
  refine ⟨⟨h, ?_⟩, ?_⟩
  · simp [length, hmiddle]
  · simp [← hmiddle]

/-! ## Numbers at an offset -/

/-- The little-endian number that the bytes at an offset spell. -/
def numberAt (value : Value) (offset : UInt64) (width : Nat) : Except Error Nat :=
  (value.window offset width).map Bytes.toNat

/-- What a bounds-checked read of a little-endian number answers: the sum of the bytes at the
offset, each with the weight of its place, if all of them lie within the value, and otherwise the
error that names the offset, the width and the length of the value. -/
structure ReadsExactly (value : Value) (offset : UInt64) (width : Nat)
    (answer : Except Error Nat) : Prop where
  eq_ok_iff : ∀ number, answer = .ok number ↔
    ∃ _ : offset.toNat + width ≤ value.data.length,
      number = ∑ i : Fin width, value.data[offset.toNat + i].toNat * 256 ^ i.val
  eq_error_iff : ∀ error, answer = .error error ↔
    value.data.length < offset.toNat + width ∧
      error = .outOfBounds offset.toNat width value.data.length

/-- An answer that is passed on in another form is there exactly if it was before. -/
theorem map_eq_ok_iff {α β : Type} {answer : Except Error α} {change : α → β} {result : β} :
    answer.map change = .ok result ↔ ∃ inner, answer = .ok inner ∧ change inner = result := by
  cases answer <;> simp [Except.map]

/-- The number in a window that the value covers is the sum of its bytes. -/
theorem numberAt_exact (hlength : value.length < UInt64.size) (offset : UInt64) (width : Nat) :
    value.ReadsExactly offset width (value.numberAt offset width) := by
  by_cases hwithin : offset.toNat + width ≤ value.data.length
  · have hanswer : value.numberAt offset width
        = .ok (∑ i : Fin width, value.data[offset.toNat + i].toNat * 256 ^ i.val) := by
      rw [numberAt, window_of_covers ((covers_iff hlength).mpr hwithin), Except.map,
        Bytes.toNat_take_drop hwithin]
    rw [hanswer]
    refine ⟨fun number ↦ ?_, fun error ↦ ⟨nofun, fun hbeyond ↦ ?_⟩⟩
    · rw [Except.ok.injEq, exists_prop_of_true hwithin, eq_comm]
    · exact absurd hbeyond.1 (Nat.not_lt.mpr hwithin)
  · have hanswer : value.numberAt offset width
        = .error (.outOfBounds offset.toNat width value.data.length) := by
      rw [numberAt, window_of_not_covers (mt (covers_iff hlength).mp hwithin)]
      rfl
    rw [hanswer]
    refine ⟨fun number ↦ ⟨nofun, fun hexists ↦ ?_⟩, fun error ↦ ?_⟩
    · exact absurd hexists.1 hwithin
    · rw [Except.error.injEq, eq_comm, and_iff_right (Nat.lt_of_not_le hwithin)]

/-- The number in two neighbouring windows is composed of the numbers in each. -/
theorem numberAt_add (first second : Nat) :
    value.numberAt offset (first + second) = .ok number ↔
      ∃ low high, value.numberAt offset first = .ok low ∧
        value.numberAt (offset + UInt64.ofNat first) second = .ok high ∧
        number = low + 256 ^ first * high := by
  simp only [numberAt, map_eq_ok_iff, window_add]
  constructor
  · rintro ⟨_, ⟨front, rest, hfront, hrest, rfl⟩, rfl⟩
    refine ⟨_, _, ⟨front, hfront, rfl⟩, ⟨rest, hrest, rfl⟩, ?_⟩
    rw [Bytes.toNat_append, length_window hfront]
  · rintro ⟨_, _, ⟨front, hfront, rfl⟩, ⟨rest, hrest, rfl⟩, rfl⟩
    refine ⟨_, ⟨front, rest, hfront, hrest, rfl⟩, ?_⟩
    rw [Bytes.toNat_append, length_window hfront]

/-- A number that was spelled out among other bytes is read back, if it fits the width. -/
theorem numberAt_between {front rest : Bytes} (h : front.length + width < UInt64.size)
    (hnumber : number < 256 ^ width) :
    numberAt ⟨front ++ Bytes.ofNat width number ++ rest⟩ (UInt64.ofNat front.length) width
      = .ok number := by
  rw [numberAt, window_between (Bytes.length_ofNat width number) h, Except.map, Bytes.toNat_ofNat,
    Nat.mod_eq_of_lt hnumber]

/-! ## Words at an offset -/

/-- A word that is as wide as the window holds the number in it. -/
theorem map_word {Word : Type} {ofNat : Nat → Word} {toNat : Word → Nat}
    (hword : ∀ number < 256 ^ width, toNat (ofNat number) = number) :
    ((value.window offset width).map fun bytes ↦ ofNat (Bytes.toNat bytes)).map toNat
      = value.numberAt offset width := by
  unfold numberAt
  cases hwindow : value.window offset width with
  | error error => rfl
  | ok bytes =>
      have hfits := Bytes.toNat_lt bytes
      rw [length_window hwindow] at hfits
      exact congrArg Except.ok (hword _ hfits)

/-- A short word is the number in a window of four bytes. -/
theorem readU32_toNat (value : Value) (offset : UInt64) :
    (value.readU32 offset).map UInt32.toNat = value.numberAt offset 4 :=
  map_word fun _ hfits ↦ UInt32.toNat_ofNat_of_lt' hfits

/-- A long word is the number in a window of eight bytes. -/
theorem readU64_toNat (value : Value) (offset : UInt64) :
    (value.readU64 offset).map UInt64.toNat = value.numberAt offset 8 :=
  map_word fun _ hfits ↦ UInt64.toNat_ofNat_of_lt' hfits

/-- A word is known by the number that it holds. -/
theorem eq_ok_of_map {Word : Type} {answer : Except Error Word} {toNat : Word → Nat} {word : Word}
    (hinjective : Function.Injective toNat) (h : answer.map toNat = .ok (toNat word)) :
    answer = .ok word := by
  obtain ⟨inner, hanswer, hsame⟩ := map_eq_ok_iff.mp h
  rw [hanswer, hinjective hsame]

/-- The upper half of a long word starts at an offset if there is a lower half. -/
theorem toNat_add_of_readU32 {low : UInt32} (h : value.readU32 offset = .ok low) :
    (offset + 4).toNat = offset.toNat + 4 := by
  have hlow : value.numberAt offset 4 = .ok low.toNat := by
    rw [← readU32_toNat, h]
    rfl
  obtain ⟨bytes, hwindow, -⟩ := map_eq_ok_iff.mp hlow
  exact toNat_add_of_covers (window_eq_ok_iff.mp hwindow).1

/-- Reads of words are exact and stay within the value. A read at any offset gives the sum of the
bytes there, each with the weight of its place, if the sum of the offset and the width is at most
the length of the value, and otherwise it fails with the error that names the three; the length of a
value in memory is itself a number of 64 bits. The bytes that a read looks at are always as many as
the word has. A long word is read exactly if the two short ones are that it is composed of, and the
second of these is at an offset whenever the first is there. A word that is spelled out after some
bytes and before others is read back at the length of the former. -/
theorem words_exact :
    (∀ (value : Value) (offset : UInt64), value.length < UInt64.size →
      value.ReadsExactly offset 4 ((value.readU32 offset).map UInt32.toNat) ∧
        value.ReadsExactly offset 8 ((value.readU64 offset).map UInt64.toNat)) ∧
      (∀ (value : Value) offset width bytes, value.window offset width = .ok bytes →
        bytes.length = width) ∧
      (∀ (value : Value) (offset : UInt64) (number : Nat),
        (value.readU64 offset).map UInt64.toNat = .ok number ↔
          ∃ low high, (value.readU32 offset).map UInt32.toNat = .ok low ∧
            (value.readU32 (offset + 4)).map UInt32.toNat = .ok high ∧
            number = low + 2 ^ 32 * high) ∧
      (∀ (value : Value) (offset : UInt64) low, value.readU32 offset = .ok low →
        (offset + 4).toNat = offset.toNat + 4) ∧
      (∀ (front rest : Bytes) (word : UInt32), front.length + 4 < UInt64.size →
        readU32 ⟨front ++ Bytes.ofNat 4 word.toNat ++ rest⟩ (UInt64.ofNat front.length)
          = .ok word) ∧
      ∀ (front rest : Bytes) (word : UInt64), front.length + 8 < UInt64.size →
        readU64 ⟨front ++ Bytes.ofNat 8 word.toNat ++ rest⟩ (UInt64.ofNat front.length)
          = .ok word := by
  -- Each fact about a word is the one about a number of its width, read through the word's own
  -- type.
  refine ⟨fun value offset hlength ↦ ?_, fun value offset width bytes ↦ length_window,
    fun value offset number ↦ ?_, fun value offset low ↦ toNat_add_of_readU32,
    fun front rest word hfront ↦ ?_, fun front rest word hfront ↦ ?_⟩
  · rw [readU32_toNat, readU64_toNat]
    exact ⟨numberAt_exact hlength offset 4, numberAt_exact hlength offset 8⟩
  · rw [readU64_toNat, readU32_toNat, readU32_toNat]
    exact numberAt_add 4 4
  · refine eq_ok_of_map (fun _ _ ↦ UInt32.toNat_inj.mp) ?_
    rw [readU32_toNat]
    exact numberAt_between hfront word.toNat_lt
  · refine eq_ok_of_map (fun _ _ ↦ UInt64.toNat_inj.mp) ?_
    rw [readU64_toNat]
    exact numberAt_between hfront word.toNat_lt

/-- A value of twelve bytes has a long word that ends with it; the next one is out of bounds, and so
is a short one at an offset that is too large to add its width. -/
theorem words_exact_sample :
    let value : Value := ⟨[1, 2, 3, 4, 5, 6, 7, 8, 9, 10, 11, 12]⟩
    value.readU64 4 = .ok 0x0c0b0a0908070605 ∧
      (value.readU32 4).map UInt32.toNat = .ok (5 + 6 * 256 + 7 * 256 ^ 2 + 8 * 256 ^ 3) ∧
      (value.readU64 5).map UInt64.toNat = .error (.outOfBounds 5 8 12) ∧
      (value.readU32 0xfffffffffffffffe).map UInt32.toNat
        = .error (.outOfBounds 0xfffffffffffffffe 4 12) := by
  intro value
  obtain ⟨hexact, -, -, -, -, hlong⟩ := words_exact
  have hlength : value.length < UInt64.size := by decide
  refine ⟨hlong [1, 2, 3, 4] [] 0x0c0b0a0908070605 (by decide), ?_, ?_, ?_⟩
  · refine ((hexact value 4 hlength).1.eq_ok_iff _).mpr ⟨by decide, ?_⟩
    simp [Fin.sum_univ_succ, value]
  · exact ((hexact value 5 hlength).2.eq_error_iff _).mpr ⟨by decide, rfl⟩
  · exact ((hexact value _ hlength).1.eq_error_iff _).mpr ⟨by decide, rfl⟩

end Value

end MappedStore
