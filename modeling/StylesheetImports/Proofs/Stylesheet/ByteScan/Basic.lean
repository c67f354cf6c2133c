import StylesheetImports.Proofs.Stylesheet.Fragment
import StylesheetImports.Proofs.Text.Utf8

/-!
A scan by positions. The bytes of a text are read at one position after the other; a backslash skips a byte without a
look at it; what is kept is cut out of the text between two positions. Each way in which this can go wrong is a fault.
-/

set_option autoImplicit false

namespace StylesheetImports

open Utf8 Lexeme

namespace ByteScan

inductive Fault where
  | missing (position : Nat)
  -- A slice that ends before it starts, lies outside of the text or cuts a character.
  | miscut (span : Span)
  -- A loop that does not go on behind where it was, so that it never ends.
  | stalled (position : Nat)
  deriving DecidableEq

variable (text : List Char)

-- The byte at a position, as the character of its number. The bytes of a character beyond ASCII
-- have numbers from 0x80 on, so they are taken for none that a scan looks for.
def byte? (i : Nat) : Option Char :=
  (encode text)[i]?.map fun b => Char.ofNat b.toNat

def cut (span : Span) : Except Fault (List Char) :=
  match slice? span text with
  | some part => .ok part
  | none => .error (.miscut span)

theorem byte?_isSome {i : Nat} : (byte? text i).isSome ↔ i < size text := by
  simp [byte?]

variable {text} in
theorem lt_size {i : Nat} {c : Char} (h : byte? text i = some c) : i < size text := by
  rw [← byte?_isSome, h]
  rfl

def passed (passes : Char -> Bool) (i : Nat) : Nat :=
  match _here : byte? text i with
  | none => i
  | some c => if passes c then passed passes (i + 1) else i
termination_by size text - i
decreasing_by have := lt_size _here; omega

def stringEnd? (quote : Char) (i : Nat) : Option Nat :=
  match _here : byte? text i with
  | none => none
  | some c =>
    -- The byte behind a backslash may be one inside of a character, or there may be none.
    if c = '\\' then stringEnd? quote (i + 2)
    else if c = '\n' then none
    else if c = quote then some (i + 1)
    else stringEnd? quote (i + 1)
termination_by size text - i
decreasing_by
  all_goals
    have := lt_size _here
    omega

def blockEnd (i : Nat) : Nat :=
  if i + 1 < size text then
    if byte? text i = some '*' ∧ byte? text (i + 1) = some '/' then i + 2 else blockEnd (i + 1)
  else size text
termination_by size text - i

def bareEnd? (depth : Depth) (i : Nat) : Option Nat :=
  match _here : byte? text i with
  | none => none
  | some c =>
    if c = '\\' then bareEnd? depth (i + 2)
    else if c = '#' ∧ byte? text (i + 1) = some '\x7b' then bareEnd? { depth with braces := depth.braces + 1 } (i + 2)
    else
      match depth.next c with
      | .goOn deeper => bareEnd? deeper (i + 1)
      | .close => some i
      | .broken => none
termination_by size text - i
decreasing_by
  all_goals
    have := lt_size _here
    omega

def trimmed (start : Nat) : Nat -> Except Fault Nat
  | 0 => .ok 0
  | stop + 1 =>
    if start < stop + 1 then
      match byte? text stop with
      | none => .error (.missing stop)
      | some c => if isSpace c then trimmed start stop else .ok (stop + 1)
    else .ok (stop + 1)

theorem le_passed (passes : Char -> Bool) (i : Nat) : i <= passed text passes i := by
  induction i using passed.induct text passes with
  | case1 i last =>
    unfold passed
    split <;> simp_all
  | case2 i c here pass ih =>
    unfold passed
    split <;> simp_all
    omega
  | case3 i c here stop =>
    unfold passed
    split <;> simp_all

theorem passed_of_byte? {passes : Char -> Bool} {i : Nat} {c : Char} (here : byte? text i = some c) :
    passed text passes i = if passes c then passed text passes (i + 1) else i := by
  rw [passed]
  split <;> simp_all

theorem le_blockEnd {i : Nat} (h : i <= size text) : i <= blockEnd text i := by
  induction i using blockEnd.induct text with
  | case1 i here ends =>
    rw [blockEnd, if_pos here, if_pos ends]
    omega
  | case2 i here goesOn ih =>
    have := ih (by omega)
    rw [blockEnd, if_pos here, if_neg goesOn]
    omega
  | case3 i last => rwa [blockEnd, if_neg last]

def inLine (c : Char) : Bool := c ≠ '\n'

def commentEnd? (i : Nat) : Option Nat :=
  if byte? text i = some '/' ∧ byte? text (i + 1) = some '*' then some (blockEnd text (i + 2))
  else if byte? text i = some '/' ∧ byte? text (i + 1) = some '/' then some (passed text inLine i)
  else none

theorem lt_commentEnd? {i next : Nat} (h : commentEnd? text i = some next) : i < size text ∧ i < next := by
  unfold commentEnd? at h
  split_ifs at h with block line
  · have := lt_size block.2
    have := le_blockEnd text (i := i + 2) (by omega)
    rw [Option.some.injEq] at h
    omega
  · have := lt_size line.1
    have := le_passed text inLine (i + 1)
    rw [passed_of_byte? text line.1, if_pos (by decide), Option.some.injEq] at h
    omega

def gapEnd (i : Nat) : Nat :=
  match _comment : commentEnd? text (passed text isSpace i) with
  | some next => gapEnd next
  | none => passed text isSpace i
termination_by size text - i
decreasing_by
  have := le_passed text isSpace i
  have := lt_commentEnd? text _comment
  omega

def spells : List Char -> Nat -> Bool
  | [], _ => true
  | c :: word, i => byte? text i = some c && spells word (i + 1)

def opensUrl (i : Nat) : Bool :=
  (byte? text i = some 'u' || byte? text i = some 'U')
    && (byte? text (i + 1) = some 'r' || byte? text (i + 1) = some 'R')
    && (byte? text (i + 2) = some 'l' || byte? text (i + 2) = some 'L')
    && byte? text (i + 3) = some '('

def rule? (i : Nat) : Option (List Char × Bool) :=
  ruleNames.find? fun (name, _) => spells text name i && !((byte? text (i + name.length)).map isIdent).getD false

def identBefore : Nat -> Except Fault Bool
  | 0 => .ok false
  | i + 1 =>
    match byte? text i with
    | none => .error (.missing i)
    | some c => .ok (isIdent c)

def argument? (i : Nat) : Except Fault (Option (Argument × Nat)) :=
  let start := passed text isSpace i
  match byte? text start with
  | none => .ok none
  | some c =>
    if isQuote c then
      match stringEnd? text c (start + 1) with
      | none => .ok none
      | some stop => do
        let close := passed text isSpace stop
        if byte? text close = some ')' then
          let body ← cut text { start := start + 1, stop := stop - 1 }
          return some ({ span := { start, stop }, value := String.ofList (unescape body) }, close + 1)
        else return none
    else
      match bareEnd? text { braces := 0, parens := 0 } start with
      | none => .ok none
      | some close => do
        let stop ← trimmed text start close
        let body ← cut text { start, stop }
        return some ({ span := { start, stop }, value := String.ofList (unescape body) }, close + 1)

def specifier? (fromImport : Bool) (i : Nat) : Except Fault (Option Specifier × Nat) :=
  match byte? text i with
  | none => .ok (none, i)
  | some c =>
    if isQuote c then
      match stringEnd? text c (i + 1) with
      | none => .ok (none, size text)
      | some stop => do
        let body ← cut text { start := i + 1, stop := stop - 1 }
        return (some { span := { start := i, stop }, value := String.ofList body, fromImport }, stop)
    else if opensUrl text i || endsRule c then .ok (none, i)
    else do
      let stop := passed text (fun c => !endsWord c) i
      let word ← cut text { start := i, stop }
      return (some { span := { start := i, stop }, value := String.ofList word, fromImport }, stop)

def ruleFrom (fromImport : Bool) (i : Nat) : Except Fault (List Specifier × Nat) := do
  match ← specifier? text fromImport (gapEnd text i) with
  | (none, next) => return ([], next)
  | (some s, next) =>
    let comma := gapEnd text next
    if _list : fromImport = true ∧ byte? text comma = some ',' then
      if _on : i < comma + 1 then
        let (later, stop) ← ruleFrom fromImport (comma + 1)
        return (s :: later, stop)
      else throw (.stalled i)
    -- Without a comma the scan goes on behind the specifier, not behind the gap.
    else return ([s], next)
termination_by size text - i
decreasing_by
  have := lt_size _list.2
  omega

def round (c : Char) (i : Nat) : Except Fault (Scan × Nat) := do
  match commentEnd? text i with
  | some next => return (.empty, next)
  | none =>
    if isQuote c then return (.empty, (stringEnd? text c (i + 1)).getD (size text))
    else
      match if c = '@' then rule? text (i + 1) else none with
      | some (name, fromImport) =>
        let (specifiers, next) ← ruleFrom text fromImport (i + 1 + name.length)
        return ({ arguments := [], specifiers }, next)
      | none =>
        if opensUrl text i && !(← identBefore text i) then
          match ← argument? text (i + 4) with
          | some (a, next) => return ({ arguments := [a], specifiers := [] }, next)
          | none => return (.empty, i + 1)
        else return (.empty, i + 1)

def scanFrom (i : Nat) : Except Fault Scan :=
  match _here : byte? text i with
  | none => .ok .empty
  | some c => do
    let (found, next) ← round text c i
    if _on : i < next then
      let later ← scanFrom next
      return found ++ later
    else throw (.stalled i)
termination_by size text - i
decreasing_by
  have := lt_size _here
  omega

def scan : Except Fault Scan :=
  scanFrom text 0

end ByteScan

end StylesheetImports
