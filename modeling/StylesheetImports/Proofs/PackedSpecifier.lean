import StylesheetImports.PackedSpecifier
import StylesheetImports.Proofs.Stylesheet.Exactness
import StylesheetImports.Proofs.Text.Form

set_option autoImplicit false

namespace StylesheetImports

open Lexeme

namespace PackedSpecifier

theorem mem_encode {p : PackedSpecifier} {c : Char} (h : c ∈ p.encode.toList) :
    Form.isEncoded c = true ∨ c ∈ marker ++ originKey ++ specifierKey ++ ['=', '&'] := by
  simp only [encode, String.toList_ofList, List.mem_append, List.mem_cons, or_assoc] at h ⊢
  rcases h with mem | mem | same | mem | same | mem | same | mem
  · exact .inr (.inl mem)
  · exact .inr (.inr (.inl mem))
  · simp [same]
  · exact .inl (Form.isEncoded_of_mem_encode mem)
  · simp [same]
  · exact .inr (.inr (.inr (.inl mem)))
  · simp [same]
  · exact .inl (Form.isEncoded_of_mem_encode mem)

theorem plain_of_mem_encode {p : PackedSpecifier} {c : Char} (h : c ∈ p.encode.toList) :
    c ≠ '"' ∧ c ≠ '\\' ∧ c ≠ '\n' := by
  rcases mem_encode h with encoded | mem
  · refine ⟨?_, ?_, ?_⟩ <;> rintro rfl <;> exact absurd encoded (by decide)
  · have table : (marker ++ originKey ++ specifierKey ++ ['=', '&']).all
        (fun d => d ≠ '"' && d ≠ '\\' && d ≠ '\n') = true := by decide
    simpa [and_assoc] using List.all_eq_true.mp table c mem

theorem isQuote_quotes : isQuote '"' = true := rfl

theorem quoted_encode (p : PackedSpecifier) (rest : List Char) :
    Lexeme.quoted '"' (p.encode.toList ++ '"' :: rest) = some (p.encode.toList, rest) :=
  quoted_plain isQuote_quotes (fun _ mem => plain_of_mem_encode mem) rest

theorem toList_encode (p : PackedSpecifier) :
    p.encode.toList = marker ++ ((originKey ++ '=' :: Form.encode (Utf8.decodeLossy p.origin.bytes)) ++
      '&' :: (specifierKey ++ '=' :: Form.encode p.specifier.toList)) := by
  simp [encode]

theorem length_lt_encode (p : PackedSpecifier) : p.specifier.toList.length < p.encode.toList.length := by
  have value := Form.length_le_encode p.specifier.toList
  have whole := congrArg List.length p.toList_encode
  simp only [List.length_append, List.length_cons] at whole
  omega

theorem plain_of_mem_key {c : Char} (h : c ∈ originKey ++ specifierKey) : c ≠ '&' ∧ c ≠ '=' := by
  have table : (originKey ++ specifierKey).all (fun d => d ≠ '&' && d ≠ '=') = true := by decide
  simpa using List.all_eq_true.mp table c h

theorem decode?_encode {p : PackedSpecifier} (text : ∃ t, p.origin.bytes = Utf8.encode t) :
    decode? p.encode = some p := by
  obtain ⟨t, ht⟩ := text
  have originPlain (c : Char) (mem : c ∈ originKey) := plain_of_mem_key (List.mem_append_left specifierKey mem)
  have specifierPlain (c : Char) (mem : c ∈ specifierKey) := plain_of_mem_key (List.mem_append_right originKey mem)
  have keys : Form.decode originKey = originKey ∧ Form.decode specifierKey = specifierKey := by decide +kernel
  have distinct : (originKey == specifierKey) = false := by decide
  have pairs : Form.pairs ((originKey ++ '=' :: Form.encode (Utf8.decodeLossy p.origin.bytes)) ++
      '&' :: (specifierKey ++ '=' :: Form.encode p.specifier.toList)) =
        [(originKey, t), (specifierKey, p.specifier.toList)] := by
    rw [Form.pairs_append, Form.pairs_value originPlain, Form.pairs_value specifierPlain, keys.1, keys.2, ht,
      Utf8.decodeLossy_encode]
    rfl
  have origin : lastValue? originKey [(originKey, t), (specifierKey, p.specifier.toList)] = some t := by
    simp [lastValue?, List.lookup_cons, distinct]
  have specifier : lastValue? specifierKey [(originKey, t), (specifierKey, p.specifier.toList)] =
      some p.specifier.toList := by
    simp [lastValue?]
  have marked : marker.isPrefixOf? p.encode.toList = some ((originKey ++ '=' ::
      Form.encode (Utf8.decodeLossy p.origin.bytes)) ++
        '&' :: (specifierKey ++ '=' :: Form.encode p.specifier.toList)) := by
    rw [List.isPrefixOf?_eq_some_iff_append_eq, toList_encode]
  rw [decode?, marked, Option.bind_some]
  simp only [pairs, origin, specifier, String.ofList_toList]
  rw [← ht]

theorem encode_inj {p q : PackedSpecifier} (text : ∃ t, p.origin.bytes = Utf8.encode t)
    (text' : ∃ t, q.origin.bytes = Utf8.encode t) : q.encode = p.encode ↔ q = p := by
  constructor
  · intro same
    have back := decode?_encode text'
    rw [same, decode?_encode text] at back
    exact (Option.some.inj back).symm
  · rintro rfl
    rfl

def signs : List Char :=
  ['*', '-', '.', '_', '+', '%', '&', '=', '?', ':']

theorem alphanum_or_sign {p : PackedSpecifier} {c : Char} (h : c ∈ p.encode.toList) :
    c.isAlphanum = true ∨ c ∈ signs := by
  rcases mem_encode h with encoded | mem
  · have kinds : c.isAlphanum = true ∨ c ∈ ['*', '-', '.', '_', '+', '%'] := by
      simpa [Form.isEncoded, or_assoc] using encoded
    exact kinds.imp_right fun mem => List.mem_append_left ['&', '=', '?', ':'] mem
  · have table : (marker ++ originKey ++ specifierKey ++ ['=', '&']).all
        (fun d => d.isAlphanum || signs.contains d) = true := by decide
    simpa using List.all_eq_true.mp table c mem

open Fragment Utf8

def inQuotes (p : PackedSpecifier) : Quoted where
  quote := '"'
  body := p.encode.toList
  isQuote := isQuote_quotes
  plain := fun _ mem => plain_of_mem_encode mem

theorem text_inQuotes (p : PackedSpecifier) : p.inQuotes.text = p.quoted.toList := by
  simp [quoted, inQuotes, Quoted.text]

theorem scan_inQuotes (p : PackedSpecifier) {name : List Char} {fromImport : Bool}
    (named : (name, fromImport) ∈ ruleNames) (before after : List Blank) :
    Scan.ofText (String.ofList ('@' :: name ++ blanks before ++ p.quoted.toList ++ blanks after ++ [';'])) =
      { arguments := []
        specifiers := [{
          span := {
            start := size ('@' :: name ++ blanks before)
            stop := size ('@' :: name ++ blanks before ++ p.quoted.toList) }
          value := p.encode
          fromImport }] } := by
  obtain ⟨r, rfl, rfl, first, more⟩ := Rule.exists_named named { before, specifier := p.inQuotes, after }
  have whole : r.text = '@' :: r.name ++ blanks before ++ p.quoted.toList ++ blanks after ++ [';'] := by
    simp [Rule.text, first, more, Item.listed, Item.text, text_inQuotes]
  rw [← whole, r.passes.ofText, Rule.specifiersAt, first, more, Item.specifiersAt, Item.specifierAt, text_inQuotes]
  simp [inQuotes, Nat.add_assoc]

/-- What is packed is read back, from signs that no string of a stylesheet minds, and a rule with the packed specifier
in its quotes lists just that. -/
theorem encode_roundTrip (origin specifier : String) :
    let p : PackedSpecifier := { origin := Path.ofString origin, specifier }
    decode? p.encode = some p ∧
      (∀ origin' specifier' : String,
        ({ origin := Path.ofString origin', specifier := specifier' } : PackedSpecifier).encode = p.encode ↔
          { origin := Path.ofString origin', specifier := specifier' } = p) ∧
      (∀ c ∈ p.encode.toList, c.isAlphanum = true ∨ c ∈ signs) ∧
      ∀ name fromImport, (name, fromImport) ∈ ruleNames -> ∀ before after : List Blank,
        Scan.ofText (String.ofList ('@' :: name ++ blanks before ++ p.quoted.toList ++ blanks after ++ [';'])) =
          { arguments := []
            specifiers := [{
              span := {
                start := size ('@' :: name ++ blanks before)
                stop := size ('@' :: name ++ blanks before ++ p.quoted.toList) }
              value := p.encode
              fromImport }] } := by
  intro p
  refine ⟨decode?_encode ⟨_, rfl⟩, fun origin' specifier' => encode_inj ⟨_, rfl⟩ ⟨_, rfl⟩,
    fun c mem => alphanum_or_sign mem, fun name fromImport named before after => ?_⟩
  exact p.scan_inQuotes named before after

-- A blank, parentheses, a quote and the signs of a form.
theorem encode_roundTrip_signs :
    (['u', 's', 'e'], false) ∈ ruleNames ∧
      decode? "sassbase-pkg:?origin=%2Fmy+%28copy%29&spec=%7Ea%26b%3D%22c" =
          some { origin := Path.ofString "/my (copy)", specifier := "~a&b=\"c" } ∧
        Scan.ofText "@use \"sassbase-pkg:?origin=%2Fmy+%28copy%29&spec=%7Ea%26b%3D%22c\";" =
          { arguments := []
            specifiers := [{
              span := { start := 5, stop := 65 }
              value := "sassbase-pkg:?origin=%2Fmy+%28copy%29&spec=%7Ea%26b%3D%22c"
              fromImport := false }] } := by
  have named : (['u', 's', 'e'], false) ∈ ruleNames := by decide
  obtain ⟨back, _, _, listed⟩ := encode_roundTrip "/my (copy)" "~a&b=\"c"
  have written : ({ origin := Path.ofString "/my (copy)", specifier := "~a&b=\"c" } : PackedSpecifier).encode =
      "sassbase-pkg:?origin=%2Fmy+%28copy%29&spec=%7Ea%26b%3D%22c" := by
    decide +kernel
  have alone := listed _ _ named [.space ' ' (by decide)] []
  rw [written] at back
  simp only [quoted, written] at alone
  exact ⟨named, back, alone⟩

end PackedSpecifier

end StylesheetImports
