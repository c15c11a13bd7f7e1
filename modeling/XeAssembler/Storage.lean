import XeAssembler.Fault
import XeAssembler.Source
import XeAssembler.Volume

set_option autoImplicit false

namespace XeAssembler

class Storage (m : Type → Type) where
  read : String → m (Except ReadError ByteArray)
  create : String → m Bool
  write : String → ByteArray → m Bool
  sync : String → m Bool
  rename : String → String → m Bool
  remove : String → m Unit

abbrev VolumeM := StateM Volume

instance : Storage VolumeM where
  read path := fun volume => (volume.read path, volume)
  create path := fun volume => volume.create path
  write path content := fun volume => volume.write path content
  sync path := fun volume => volume.sync path
  rename path target := fun volume => volume.rename path target
  remove path := fun volume => ((), volume.remove path)

def Source.read {m : Type → Type} [Monad m] [Storage m] (path : String) :
    m (Except Fault Source) := do
  match ← Storage.read path with
  | .error .notFound => return .error (.cannotOpen path)
  | .error .unreadable => return .error .cannotRead
  | .ok bytes =>
    match Source.ofBytes? path bytes with
    | some source => return .ok source
    | none => return .error .cannotRead

end XeAssembler
