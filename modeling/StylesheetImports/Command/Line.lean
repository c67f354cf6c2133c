import StylesheetImports.Path.Basic

set_option autoImplicit false

namespace StylesheetImports

namespace Command

inductive Word where
  | divider
  | long (name : List Char) (value : Option (List Char))
  | short (letters : List Char)
  | plain
  deriving DecidableEq

def Word.ofString (word : String) : Word :=
  match word.toList with
  | ['-', '-'] => .divider
  | '-' :: '-' :: rest =>
    .long (rest.takeWhile (· ≠ '=')) ((rest.dropWhile (· ≠ '=')).tail?)
  | '-' :: c :: rest => .short (c :: rest)
  | _ => .plain

inductive Flag where
  | verbose
  | json
  | cwd
  | help
  | version
  | from
  | fromImport
  | entry
  | output
  deriving DecidableEq

inductive Stop where
  | help
  | version
  | malformed
  deriving DecidableEq

inductive Use where
  | counts
  | once
  | takesPath
  | ends (stop : Stop)
  deriving DecidableEq

namespace Flag

def name : Flag -> String
  | .verbose => "verbose"
  | .json => "json"
  | .cwd => "cwd"
  | .help => "help"
  | .version => "version"
  | .from => "from"
  | .fromImport => "import"
  | .entry => "entry"
  | .output => "output"

def letter? : Flag -> Option Char
  | .verbose => some 'v'
  | .help => some 'h'
  | .version => some 'V'
  | .output => some 'o'
  | _ => none

def use : Flag -> Use
  | .verbose => .counts
  | .json => .once
  | .cwd => .takesPath
  | .help => .ends .help
  | .version => .ends .version
  | .from => .takesPath
  | .fromImport => .once
  | .entry => .takesPath
  | .output => .takesPath

end Flag

inductive Verb where
  | version
  | resolve
  | load
  | graph
  | check
  deriving DecidableEq

namespace Verb

def name : Verb -> String
  | .version => "version"
  | .resolve => "resolve"
  | .load => "load"
  | .graph => "graph"
  | .check => "check"

def all : List Verb := [.version, .resolve, .load, .graph, .check]

def flags : Verb -> List Flag
  | .resolve => [.from, .fromImport]
  | .load => [.entry, .output]
  | _ => []

def arguments : Verb -> Nat
  | .version => 0
  | _ => 1

def takesPaths : Verb -> Bool
  | .resolve => false
  | _ => true

end Verb

def shared : List Flag := [.verbose, .json, .cwd, .help]

def allowed : Option Verb -> List Flag
  | none => shared ++ [.version]
  | some verb => shared ++ verb.flags

structure Given where
  flags : List (Flag × List Char)
  arguments : List String
  deriving DecidableEq

namespace Given

def empty : Given := { flags := [], arguments := [] }

def has (g : Given) (f : Flag) : Bool :=
  g.flags.any (fun (other, _) => other = f)

def count (g : Given) (f : Flag) : Nat :=
  (g.flags.filter (fun (other, _) => other = f)).length

def path? (g : Given) (f : Flag) : Option Path :=
  (g.flags.lookup f).map (fun value => Path.ofString (String.ofList value))

def addFlag (g : Given) (f : Flag) (value : List Char) : Except Stop Given :=
  let more : Given := { g with flags := g.flags ++ [(f, value)] }
  match f.use with
  | .ends stop => .error stop
  | .counts => .ok more
  | .once => if g.has f then .error .malformed else .ok more
  | .takesPath => if g.has f || value = [] then .error .malformed else .ok more

def addArgument (verb : Verb) (g : Given) (word : String) : Except Stop Given :=
  if verb.arguments <= g.arguments.length || (verb.takesPaths && word = "") then .error .malformed
  else .ok { g with arguments := g.arguments ++ [word] }

end Given

def takeLetters (flags : List Flag) (g : Given) : List Char -> Except Stop (Given × Option Flag)
  | [] => .ok (g, none)
  | c :: rest =>
    match flags.find? (fun f => f.letter? = some c) with
    | none => .error .malformed
    | some f =>
      if f.use = .takesPath then
        match rest with
        | [] => .ok (g, some f)
        | '=' :: value => (g.addFlag f value).map (fun g => (g, none))
        | value => (g.addFlag f value).map (fun g => (g, none))
      else
        match g.addFlag f [] with
        | .error stop => .error stop
        | .ok g => takeLetters flags g rest

def takeLong (flags : List Flag) (g : Given) (name : List Char) (value : Option (List Char)) :
    Except Stop (Given × Option Flag) :=
  match flags.find? (fun f => f.name.toList = name) with
  | none => .error .malformed
  | some f =>
    match f.use, value with
    | .takesPath, none => .ok (g, some f)
    | .takesPath, some value => (g.addFlag f value).map (fun g => (g, none))
    | _, some _ => .error .malformed
    | _, none => (g.addFlag f []).map (fun g => (g, none))

def takeFlag (flags : List Flag) (g : Given) : Word -> Except Stop (Given × Option Flag)
  | .long name value => takeLong flags g name value
  | .short letters => takeLetters flags g letters
  | _ => .error .malformed

/-- Reads the words of a level. The program itself ends at the first plain word, which it gives with the
words behind it. -/
def takeLevel (verb : Option Verb) (g : Given) :
    List String -> Except Stop (Given × Option (String × List String))
  | [] => .ok (g, none)
  | word :: rest =>
    match Word.ofString word, verb with
    | .divider, none => if rest = [] then .ok (g, none) else .error .malformed
    | .divider, some verb => (rest.foldlM (Given.addArgument verb) g).map (fun g => (g, none))
    | .plain, none => .ok (g, some (word, rest))
    | .plain, some v =>
      match g.addArgument v word with
      | .error stop => .error stop
      | .ok g => takeLevel verb g rest
    | flag, _ =>
      match takeFlag (allowed verb) g flag with
      | .error stop => .error stop
      | .ok (g, none) => takeLevel verb g rest
      | .ok (g, some f) =>
        match rest with
        | [] => .error .malformed
        | value :: rest =>
          if Word.ofString value = .plain then
            match g.addFlag f value.toList with
            | .error stop => .error stop
            | .ok g => takeLevel verb g rest
          else .error .malformed

end Command

inductive Command where
  | version
  | resolve (specifier : String) (file : Option Path) (fromImport : Bool)
  | load (file : Path) (entry output : Option Path)
  | graph (entry : Path)
  | check (dir : Option Path)
  deriving DecidableEq

structure Invocation where
  cwd : Option Path
  json : Bool
  verbosity : Nat
  command : Command
  deriving DecidableEq

namespace Command

-- The verbosity that counts no further.
def loudest : Nat := 255

def ofGiven (g : Given) : Verb -> Except Stop Command
  | .version => .ok .version
  | .resolve =>
    match g.arguments with
    | specifier :: _ => .ok (.resolve specifier (g.path? .from) (g.has .fromImport))
    | [] => .error .malformed
  | .load =>
    match g.arguments with
    | file :: _ => .ok (.load file (g.path? .entry) (g.path? .output))
    | [] => .error .malformed
  | .graph =>
    match g.arguments with
    | entry :: _ => .ok (.graph entry)
    | [] => .error .malformed
  | .check => .ok (.check (g.arguments.head?.map Path.ofString))

def invocation (outer inner : Given) (command : Command) : Invocation :=
  let level := if inner.has .verbose then inner else outer
  { cwd := (inner.path? .cwd).or (outer.path? .cwd)
    json := outer.has .json || inner.has .json
    verbosity := min (level.count .verbose) loudest
    command }

def helpStop (names : List String) : Stop :=
  match names with
  | [] => .help
  | [name] => if ("help" :: Verb.all.map Verb.name).contains name then .help else .malformed
  | _ => .malformed

/-- Reads a command line. Without a command it asks for the version. -/
def ofLine (words : List String) : Except Stop Invocation := do
  match ← takeLevel none .empty words with
  | (outer, none) => .ok (invocation outer .empty .version)
  | (outer, some (name, rest)) =>
    match Verb.all.find? (fun verb => verb.name = name) with
    | none => .error (if name = "help" then helpStop rest else .malformed)
    | some verb => do
      let (inner, _) ← takeLevel (some verb) .empty rest
      let command ← ofGiven inner verb
      .ok (invocation outer inner command)

end Command

end StylesheetImports
