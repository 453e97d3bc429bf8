import MqssClient.Json

/-!
# UTF-8

* `IsUtf8`: a string is the UTF-8 encoding of characters; `Json.IsUtf8`: every string of a value is;
* `JsonLib.Dumps`: serialising a value throws only where a string is not UTF-8.
-/

namespace MqssClient

/-- The string encodes some characters. -/
def IsUtf8 (s : Bytes) : Prop := ∃ cs : List Char, s = cs.flatMap String.utf8EncodeChar

theorem isUtf8_append {s t : Bytes} (hs : IsUtf8 s) (ht : IsUtf8 t) : IsUtf8 (s ++ t) := by
  obtain ⟨cs, rfl⟩ := hs
  obtain ⟨ds, rfl⟩ := ht
  exact ⟨cs ++ ds, List.flatMap_append.symm⟩

/-- ASCII strings are UTF-8. -/
theorem isUtf8_of_ascii {s : Bytes} (h : ∀ c ∈ s, c < 128) : IsUtf8 s := by
  induction s with
  | nil => exact ⟨[], rfl⟩
  | cons c s ih =>
    obtain ⟨hc, hs⟩ := List.forall_mem_cons.mp h
    refine isUtf8_append (s := [c]) ⟨[Char.ofUInt8 c], ?_⟩ (ih hs)
    have hsize : (Char.ofUInt8 c).utf8Size = 1 := by
      have hval : (Char.ofUInt8 c).val.toNat = c.toNat := rfl
      have h127 : (127 : UInt32).toNat = 127 := rfl
      have h128 : c.toNat < 128 := UInt8.lt_iff_toNat_lt.mp hc
      rw [Char.utf8Size_eq_one_iff, UInt32.le_iff_toNat_le]
      omega
    rw [List.flatMap_singleton, String.utf8EncodeChar_eq_singleton hsize]
    exact congrArg (fun b => [b]) (UInt8.toUInt8_toUInt32 c).symm

mutual

/-- Every string of the value is UTF-8, the keys of objects among them. -/
def Json.IsUtf8 : Json → Prop
  | .string s => MqssClient.IsUtf8 s
  | .array elements => AllUtf8 elements
  | .object members => MembersUtf8 members
  | _ => True

def Json.AllUtf8 : List Json → Prop
  | [] => True
  | v :: vs => v.IsUtf8 ∧ AllUtf8 vs

def Json.MembersUtf8 : List (Bytes × Json) → Prop
  | [] => True
  | (k, v) :: vs => MqssClient.IsUtf8 k ∧ v.IsUtf8 ∧ MembersUtf8 vs

end

/-- Serialising throws only where a string is not UTF-8. -/
def JsonLib.Dumps (lib : JsonLib) (j : Json) : Prop := j.IsUtf8 → (lib.dump j).isSome

end MqssClient
