set_option autoImplicit false

namespace XeAssembler

abbrev Address := UInt32

namespace Address

def advance? (address count : Address) : Option Address :=
  if address.toNat + count.toNat < UInt32.size then some (address + count) else none

def ofWords? (count : UInt32) : Option Address :=
  if 3 * count.toNat < UInt32.size then some (3 * count) else none

theorem advance?_eq_some_iff (address count next : Address) :
    address.advance? count = some next ↔ next.toNat = address.toNat + count.toNat := by
  simp only [advance?]
  have bound := next.toNat_lt
  split
  next fits =>
    simp only [Option.some.injEq, ← UInt32.toNat_inj, UInt32.toNat_add]
    rw [Nat.mod_eq_of_lt fits]
    exact eq_comm
  next tooFar =>
    simp only [reduceCtorEq, false_iff]
    simp only [UInt32.size] at tooFar
    omega

theorem ofWords?_eq_some_iff (count : UInt32) (bytes : Address) :
    ofWords? count = some bytes ↔ bytes.toNat = 3 * count.toNat := by
  have bound := bytes.toNat_lt
  simp only [ofWords?]
  split
  next fits =>
    simp only [Option.some.injEq, ← UInt32.toNat_inj, UInt32.toNat_mul]
    have three : (3 : UInt32).toNat = 3 := rfl
    rw [three, Nat.mod_eq_of_lt fits]
    exact eq_comm
  next tooFar =>
    simp only [reduceCtorEq, false_iff]
    simp only [UInt32.size] at tooFar
    omega

end Address

end XeAssembler
