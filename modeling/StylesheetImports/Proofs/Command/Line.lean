import StylesheetImports.Command.Line

set_option autoImplicit false

namespace StylesheetImports

namespace Command

/-- Words that give no working directory. Behind `--` no word is a flag. -/
def Undirected (words : List String) : Prop :=
  ∀ word ∈ words.takeWhile (· ≠ "--"), ∀ value, Word.ofString word ≠ .long "cwd".toList value

theorem ofString_eq_divider {word : String} : Word.ofString word = .divider ↔ word = "--" := by
  constructor
  next =>
    unfold Word.ofString
    split
    next written => exact fun _ => String.toList_inj.mp written
    all_goals exact nofun
  next =>
    rintro rfl
    rfl

section

variable {word : String} {rest : List String} (undirected : Undirected (word :: rest))
  (apart : Word.ofString word ≠ .divider)

include undirected apart

theorem Undirected.head (value : Option (List Char)) : Word.ofString word ≠ .long "cwd".toList value := by
  have inside : word ≠ "--" := fun same => apart (ofString_eq_divider.mpr same)
  exact undirected word (by simp [inside]) value

theorem Undirected.tail : Undirected rest := by
  have inside : word ≠ "--" := fun same => apart (ofString_eq_divider.mpr same)
  intro other mem
  exact undirected other (by rw [List.takeWhile_cons_of_pos (by simpa using inside)]; exact List.mem_cons_of_mem _ mem)

end

theorem undirected_of_plain {words : List String} (plain : ∀ word ∈ words, Word.ofString word = .plain) :
    Undirected words := by
  intro word mem value
  rw [plain word ((List.takeWhile_sublist _).subset mem)]
  exact nofun

def Given.within (dir : List Char) (g : Given) : Given :=
  { g with flags := (.cwd, dir) :: g.flags }

inductive Beside {X : Type} (dir : List Char) (fine : X -> Prop) :
    Except Stop (Given × X) -> Except Stop (Given × X) -> Prop
  | stopped (stop : Stop) : Beside dir fine (.error stop) (.error stop)
  | given {g : Given} {x : X} (free : g.has .cwd = false) (here : fine x) :
    Beside dir fine (.ok (g, x)) (.ok (g.within dir, x))

variable {dir : List Char} {g : Given}

section

variable {f : Flag} (other : f ≠ .cwd) (value : List Char)

include other

theorem has_within : (g.within dir).has f = g.has f := by
  simp [Given.has, Given.within, Ne.symm other]

theorem addFlag_within : (g.within dir).addFlag f value = (g.addFlag f value).map (Given.within dir) := by
  unfold Given.addFlag
  rw [has_within other]
  cases f.use with
  | counts | ends => rfl
  | once | takesPath => dsimp only; split <;> rfl

theorem has_of_addFlag {more : Given} (added : g.addFlag f value = .ok more) : more.has .cwd = g.has .cwd := by
  have whole : more = { g with flags := g.flags ++ [(f, value)] } := by
    simp only [Given.addFlag] at added
    split at added
    next => cases added
    next => exact (Except.ok.inj added).symm
    all_goals
      split at added
      · cases added
      · exact (Except.ok.inj added).symm
  simp [whole, Given.has, other]

end

section

variable (verb : Verb)

theorem addArgument_within (word : String) :
    (g.within dir).addArgument verb word = (g.addArgument verb word).map (Given.within dir) := by
  unfold Given.addArgument
  change (if verb.arguments <= g.arguments.length || _ then _ else _) = _
  split <;> rfl

theorem addArguments_within (words : List String) :
    words.foldlM (Given.addArgument verb) (g.within dir) =
      (words.foldlM (Given.addArgument verb) g).map (Given.within dir) := by
  induction words generalizing g with
  | nil => rfl
  | cons word words ih =>
    rw [List.foldlM_cons, List.foldlM_cons, addArgument_within]
    cases g.addArgument verb word with
    | error stop => rfl
    | ok more => exact ih

theorem flags_of_addArgument {word : String} {more : Given} (added : g.addArgument verb word = .ok more) :
    more.flags = g.flags := by
  unfold Given.addArgument at added
  split at added
  · cases added
  · rw [← Except.ok.inj added]

theorem flags_of_addArguments {words : List String} {more : Given}
    (added : words.foldlM (Given.addArgument verb) g = .ok more) : more.flags = g.flags := by
  induction words generalizing g with
  | nil => rw [← Except.ok.inj added]
  | cons word words ih =>
    rw [List.foldlM_cons] at added
    cases first : g.addArgument verb word with
    | error stop => rw [first] at added; cases added
    | ok next =>
      rw [first] at added
      exact (ih added).trans (flags_of_addArgument verb first)

end

section

variable (free : g.has .cwd = false)

include free

theorem addFlag_beside {f : Flag} (other : f ≠ .cwd) (value : List Char) {X : Type} {fine : X -> Prop} {x : X}
    (here : fine x) : Beside dir fine ((g.addFlag f value).map (·, x)) (((g.within dir).addFlag f value).map (·, x)) := by
  rw [addFlag_within other]
  cases added : g.addFlag f value with
  | error stop => exact .stopped stop
  | ok more => exact .given ((has_of_addFlag other value added).trans free) here

theorem takeLetters_beside (flags : List Flag) (letters : List Char) :
    Beside dir (· ≠ some .cwd) (takeLetters flags g letters) (takeLetters flags (g.within dir) letters) := by
  induction letters generalizing g with
  | nil => exact .given free nofun
  | cons c rest ih =>
    rw [takeLetters, takeLetters]
    cases known : flags.find? (fun f => f.letter? = some c) with
    | none => exact .stopped .malformed
    | some f =>
      have other : f ≠ .cwd := by
        rintro rfl
        simpa [Flag.letter?] using List.find?_some known
      dsimp only
      split
      next =>
        cases rest with
        | nil => exact .given free (by simpa using other)
        | cons d value =>
          split
          next same => cases same
          next => exact addFlag_beside free other _ nofun
          next => exact addFlag_beside free other _ nofun
      next =>
        rw [addFlag_within other]
        cases added : g.addFlag f [] with
        | error stop => exact .stopped stop
        | ok more => exact ih ((has_of_addFlag other [] added).trans free)

theorem takeLong_beside (flags : List Flag) {name : List Char} (other : name ≠ "cwd".toList)
    (value : Option (List Char)) :
    Beside dir (· ≠ some .cwd) (takeLong flags g name value) (takeLong flags (g.within dir) name value) := by
  unfold takeLong
  cases known : flags.find? (fun f => f.name.toList = name) with
  | none => exact .stopped .malformed
  | some f =>
    have named : f.name.toList = name := by simpa using List.find?_some known
    have other : f ≠ .cwd := by
      rintro rfl
      exact other named.symm
    dsimp only
    cases f.use with
    | takesPath =>
      cases value with
      | none => exact .given free (by simpa using other)
      | some value => exact addFlag_beside free other value nofun
    | counts | once | ends =>
      cases value with
      | none => exact addFlag_beside free other [] nofun
      | some value => exact .stopped .malformed

theorem takeFlag_beside (flags : List Flag) {word : Word} (other : ∀ value, word ≠ .long "cwd".toList value) :
    Beside dir (· ≠ some .cwd) (takeFlag flags g word) (takeFlag flags (g.within dir) word) := by
  cases word with
  | long name value =>
    refine takeLong_beside free flags ?_ value
    rintro rfl
    exact other value rfl
  | short letters => exact takeLetters_beside free flags letters
  | divider | plain => exact .stopped .malformed

end

theorem has_of_flags {more : Given} {f : Flag} (same : more.flags = g.flags) (free : g.has f = false) :
    more.has f = false := by
  rw [Given.has, same]
  exact free

theorem takeLevel_flag {verb : Option Verb} {word : String} {rest : List String} {flag : Word}
    (read : Word.ofString word = flag) (apart : flag ≠ .divider) (marked : flag ≠ .plain) :
    takeLevel verb g (word :: rest) = match takeFlag (allowed verb) g flag with
      | .error stop => .error stop
      | .ok (g, none) => takeLevel verb g rest
      | .ok (g, some f) =>
        match rest with
        | [] => .error .malformed
        | value :: rest =>
          if Word.ofString value = .plain then
            match g.addFlag f value.toList with
            | .error stop => .error stop
            | .ok g => takeLevel verb g rest
          else .error .malformed := by
  rw [takeLevel.eq_def]
  dsimp only
  rw [read]
  cases flag with
  | divider => exact absurd rfl apart
  | plain => exact absurd rfl marked
  | long | short => rfl

theorem takeLevel_divider_beside (dir : List Char) {word : String} (read : Word.ofString word = .divider) {g : Given}
    (free : g.has .cwd = false) (verb : Option Verb) (rest : List String) :
    Beside dir (fun more => ∀ name rest, more = some (name, rest) -> Undirected rest)
      (takeLevel verb g (word :: rest)) (takeLevel verb (g.within dir) (word :: rest)) := by
  rw [takeLevel.eq_def, takeLevel.eq_def verb (g.within dir)]
  dsimp only
  rw [read]
  cases verb with
  | none =>
    dsimp only
    split
    · exact .given free nofun
    · exact .stopped .malformed
  | some verb =>
    dsimp only
    rw [addArguments_within]
    cases added : rest.foldlM (Given.addArgument verb) g with
    | error stop => exact .stopped stop
    | ok more => exact .given (has_of_flags (flags_of_addArguments verb added) free) nofun

theorem takeLevel_beside (dir : List Char) {g : Given} (free : g.has .cwd = false) (verb : Option Verb) {words : List String}
    (undirected : Undirected words) :
    Beside dir (fun more => ∀ name rest, more = some (name, rest) -> Undirected rest)
      (takeLevel verb g words) (takeLevel verb (g.within dir) words) := by
  -- A flag may take the next word with it, so the recursion is that of the reading: on the words that are left.
  match words with
  | [] => exact .given free nofun
  | word :: rest =>
    cases read : Word.ofString word with
    | divider => exact takeLevel_divider_beside dir read free verb rest
    | plain =>
      have later : Undirected rest := undirected.tail (by simp [read])
      rw [takeLevel.eq_def, takeLevel.eq_def verb (g.within dir)]
      dsimp only
      rw [read]
      cases verb with
      | none =>
        refine .given free fun name more same => ?_
        rw [Option.some.injEq, Prod.mk.injEq] at same
        exact same.2 ▸ later
      | some verb =>
        dsimp only
        rw [addArgument_within]
        cases added : g.addArgument verb word with
        | error stop => exact .stopped stop
        | ok more => exact takeLevel_beside dir (has_of_flags (flags_of_addArgument verb added) free) (some verb) later
    | long | short =>
      have later : Undirected rest := undirected.tail (by simp [read])
      have took : Beside dir _ _ (takeFlag (allowed verb) (g.within dir) (Word.ofString word)) :=
        takeFlag_beside free (allowed verb) (undirected.head (by simp [read]))
      rw [read] at took
      rw [takeLevel_flag read (by simp) (by simp), takeLevel_flag read (by simp) (by simp)]
      generalize takeFlag (allowed verb) g _ = taken at took ⊢
      generalize takeFlag (allowed verb) (g.within dir) _ = taken' at took ⊢
      cases took with
      | stopped stop => exact .stopped stop
      | @given more pending free' other =>
        cases pending with
        | none => exact takeLevel_beside dir free' verb later
        | some f =>
          have other : f ≠ .cwd := by simpa using other
          match rest with
          | [] => exact .stopped .malformed
          | value :: rest =>
            dsimp only
            split
            next plain =>
              rw [addFlag_within other]
              cases added : more.addFlag f value.toList with
              | error stop => exact .stopped stop
              | ok full =>
                exact takeLevel_beside dir ((has_of_addFlag other _ added).trans free') verb (later.tail (by simp [plain]))
            next => exact .stopped .malformed
termination_by words.length

theorem path?_of_free (free : g.has .cwd = false) : g.path? .cwd = none := by
  have none : g.flags.lookup .cwd = .none := by
    rw [List.lookup_eq_none_iff]
    intro flag mem
    have apart : flag.1 ≠ .cwd := by simpa using List.any_eq_false.mp free flag mem
    simpa using Ne.symm apart
  rw [Given.path?, none, Option.map_none]

theorem count_within (f : Flag) (other : f ≠ .cwd) : (g.within dir).count f = g.count f := by
  simp [Given.count, Given.within, Ne.symm other]

theorem invocation_within {inner : Given} (free : inner.has .cwd = false) (command : Command) :
    invocation (g.within dir) inner command =
      { invocation g inner command with cwd := some (Path.ofString (String.ofList dir)) } := by
  have given : (g.within dir).path? .cwd = some (Path.ofString (String.ofList dir)) := rfl
  have json : (g.within dir).has .json = g.has .json := has_within (by decide)
  have verbose : (g.within dir).count .verbose = g.count .verbose := count_within .verbose (by decide)
  unfold invocation
  rw [path?_of_free free, given, json]
  cases inner.has .verbose with
  | false => simp only [Bool.false_eq_true, if_false, verbose]; rfl
  | true => rfl

theorem takeLevel_cwd {dir : String} (plain : Word.ofString dir = .plain) (some : dir ≠ "") (words : List String) :
    takeLevel none .empty ("--cwd" :: dir :: words) = takeLevel none (Given.within dir.toList .empty) words := by
  have flag : Word.ofString "--cwd" = .long "cwd".toList none := by decide +kernel
  have pending : takeFlag (allowed none) .empty (.long "cwd".toList none) = .ok (.empty, .some .cwd) := rfl
  have added : Given.empty.addFlag .cwd dir.toList = .ok (Given.within dir.toList .empty) := by
    have some : dir.toList ≠ [] := fun empty => some (String.toList_inj.mp empty)
    simp [Given.addFlag, Flag.use, Given.has, Given.empty, some, Given.within]
  rw [takeLevel_flag flag (by decide) (by decide), pending]
  dsimp only
  rw [if_pos plain, added]

theorem Beside.free {X : Type} {fine : X -> Prop} {x : X} {reading : Except Stop (Given × X)}
    (h : Beside dir fine (.ok (g, x)) reading) : g.has .cwd = false := by
  cases h with
  | given free => exact free

theorem ofLine_within {dir : String} (plain : Word.ofString dir = .plain) (some : dir ≠ "") {words : List String}
    (undirected : Undirected words) :
    (∃ stop, ofLine words = .error stop ∧ ofLine ("--cwd" :: dir :: words) = .error stop) ∨
      ∃ i : Invocation, i.cwd = none ∧ ofLine words = .ok i ∧
        ofLine ("--cwd" :: dir :: words) = .ok { i with cwd := .some (Path.ofString dir) } := by
  have untold : Given.empty.has .cwd = false := rfl
  have outer := takeLevel_beside dir.toList untold none undirected
  unfold ofLine
  rw [takeLevel_cwd plain some]
  generalize takeLevel none .empty words = taken at outer ⊢
  generalize takeLevel none (Given.within dir.toList .empty) words = taken' at outer ⊢
  have given {outer inner : Given} (free : outer.has .cwd = false) (free' : inner.has .cwd = false) (command : Command) :
      (invocation outer inner command).cwd = none ∧ invocation (outer.within dir.toList) inner command =
        { invocation outer inner command with cwd := .some (Path.ofString dir) } := by
    refine ⟨?_, by rw [invocation_within free', String.ofList_toList]⟩
    simp [invocation, path?_of_free free, path?_of_free free']
  cases outer with
  | stopped stop => exact .inl ⟨stop, rfl, rfl⟩
  | @given outer more free later =>
    cases more with
    | none =>
      obtain ⟨cwd, same⟩ := given free untold .version
      exact .inr ⟨_, cwd, rfl, congrArg Except.ok same⟩
    | some more =>
      obtain ⟨name, rest⟩ := more
      simp only [Bind.bind, Except.bind]
      cases Verb.all.find? (fun verb => verb.name = name) with
      | none => exact .inl ⟨_, rfl, rfl⟩
      | some verb =>
        have inner := takeLevel_beside [] untold (.some verb) (later name rest rfl)
        dsimp only
        cases read : takeLevel (.some verb) .empty rest with
        | error stop => exact .inl ⟨stop, rfl, rfl⟩
        | ok taken =>
          obtain ⟨inner', more⟩ := taken
          rw [read] at inner
          dsimp only
          cases ofGiven inner' verb with
          | error stop => exact .inl ⟨stop, rfl, rfl⟩
          | ok command =>
            obtain ⟨cwd, same⟩ := given free inner.free command
            exact .inr ⟨_, cwd, rfl, congrArg Except.ok same⟩

end Command

end StylesheetImports
