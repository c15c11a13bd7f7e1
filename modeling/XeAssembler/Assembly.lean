import XeAssembler.ObjectCode

set_option autoImplicit false

namespace XeAssembler

structure Assembly where
  map : AddressMap
  code : ObjectCode
  deriving DecidableEq, Repr

namespace Assembly

def ofSource (source : Source) : Except Fault Assembly := do
  let map ← AddressMap.ofSource source
  let code ← ObjectCode.ofSource map.symbols source
  return { map, code }

def findings (assembly : Assembly) : List Finding :=
  assembly.map.findings ++ assembly.code.findings

end Assembly

end XeAssembler
