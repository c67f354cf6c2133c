set_option autoImplicit false

namespace StylesheetImports

def digitValue? (base : Nat) (c : Char) : Option Nat :=
  let value :=
    if c.isDigit then some (c.toNat - 48)
    else if 'a' <= c && c <= 'f' then some (c.toNat - 87)
    else if 'A' <= c && c <= 'F' then some (c.toNat - 55)
    else none
  value.bind (fun n => if n < base then some n else none)

def numberIn? (base : Nat) (text : List Char) : Option Nat :=
  text.foldlM (fun n c => (digitValue? base c).map (fun d => n * base + d)) 0

end StylesheetImports
