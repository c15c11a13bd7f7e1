import XeAssembler.Storage

set_option autoImplicit false

namespace XeAssembler.ObjectFile

variable {m : Type → Type} [Monad m] [Storage m]

def draftOf (path : String) : String :=
  Path.withExtension path "obj.tmp"

def replace (draft path : String) (content : ByteArray) : m Bool := do
  if ← Storage.write draft content then
    if ← Storage.sync draft then
      Storage.rename draft path
    else return false
  else return false

/-- Leaves either the whole text at the path, or what was there before and no draft. -/
def write (path text : String) : m (Except Fault Unit) := do
  let draft := draftOf path
  if ← Storage.create draft then
    if ← replace draft path text.toUTF8 then
      return .ok ()
    else
      Storage.remove draft
      return .error (.cannotWrite path)
  else
    return .error (.cannotCreate draft)

end XeAssembler.ObjectFile
