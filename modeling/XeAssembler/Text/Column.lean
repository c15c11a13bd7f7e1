set_option autoImplicit false

namespace XeAssembler.Text

def replicate (count : Nat) (c : Char) : String :=
  String.ofList (List.replicate count c)

def spaces (count : Nat) : String :=
  replicate count ' '

def padRight (width : Nat) (text : String) : String :=
  text ++ spaces (width - text.length)

def padLeft (width : Nat) (text : String) : String :=
  spaces (width - text.length) ++ text

@[simp] theorem length_replicate (count : Nat) (c : Char) : (replicate count c).length = count := by
  simp [replicate]

@[simp] theorem length_spaces (count : Nat) : (spaces count).length = count := by
  simp [spaces]

theorem length_padRight (width : Nat) (text : String) :
    (padRight width text).length = max width text.length := by
  simp [padRight]
  omega

end XeAssembler.Text
