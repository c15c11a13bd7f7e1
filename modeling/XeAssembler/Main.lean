import XeAssembler.Session

set_option autoImplicit false

namespace XeAssembler

def succeeds (action : IO Unit) : IO Bool := do
  match ← action.toBaseIO with
  | .ok _ => return true
  | .error _ => return false

instance : Storage IO where
  read path := do
    match ← (IO.FS.Handle.mk path .read).toBaseIO with
    | .error _ => return .error .notFound
    | .ok handle =>
      match ← handle.readBinToEnd.toBaseIO with
      | .error _ => return .error .unreadable
      | .ok content => return .ok content
  create path := succeeds do
    let handle ← IO.FS.Handle.mk path .write
    handle.flush
  write path content := succeeds do
    let handle ← IO.FS.Handle.mk path .write
    handle.write content
    handle.flush
  sync path := succeeds do
    let handle ← IO.FS.Handle.mk path .append
    handle.flush
  rename path target := succeeds (IO.FS.rename path target)
  remove path := do
    let _ ← succeeds (IO.FS.removeFile path)

end XeAssembler

def main (arguments : List String) : IO UInt32 := do
  let response : XeAssembler.Response ← XeAssembler.Session.command arguments
  unless response.complaint.isEmpty do
    IO.eprintln response.complaint
  IO.print response.output
  return response.code
