import DeclCheck.Check

/-!
# Arguments of the command

One input path and any number of options around it, in any order.  The path of
an option is the next argument, or follows an equals sign.  After two dashes on
their own all arguments are inputs.
-/

namespace DeclCheck.CommandLine

/-- What the command is asked to do. -/
structure Request where
  input : String
  errors : Option String := none
  functions : Option String := none
  globals : Option String := none
  options : CheckOptions := {}
  plain : Bool := false
  dumpTree : Bool := false
  dumpTokens : Bool := false
  verbose : Bool := false

/-- What is wrong with the arguments. -/
inductive UsageError where
  | missingInput
  | missingValue (option : String)
  | unknownOption (option : String)
  | extraInput (argument : String)
  deriving DecidableEq, Repr

namespace UsageError

def message : UsageError → String
  | missingInput => "error: no input file was given"
  | missingValue option => s!"error: a value is required for '{option}'"
  | unknownOption option => s!"error: unexpected argument '{option}'"
  | extraInput argument => s!"error: unexpected argument '{argument}'"

end UsageError

namespace Request

/-- The request with a switch turned on, if there is such a switch. -/
def switchOn? (request : Request) : String → Option Request
  | "--deep-calls" =>
      some { request with options.callReach := .deep }
  | "--halt-on-undefined-call" =>
      some { request with options.stopAtUndefinedCall := true }
  | "--legacy-call-reset" =>
      some { request with options.resetOnUndefinedCall := true }
  | "--plain" => some { request with plain := true }
  | "--dump-ast" => some { request with dumpTree := true }
  | "--dump-tokens" => some { request with dumpTokens := true }
  | "--verbose" => some { request with verbose := true }
  | "-v" => some { request with verbose := true }
  | _ => none

/-- How a path is put into the request, for the options that take one. -/
def setPath? : String → Option (String → Request → Request)
  | "--errors" => some fun path request => { request with errors := some path }
  | "--functions" => some fun path request => { request with functions := some path }
  | "--globals" => some fun path request => { request with globals := some path }
  | _ => none

/-- Whether an argument is written like an option; a single dash is a path. -/
def isOption (argument : String) : Bool :=
  argument.startsWith "-" && argument ≠ "-"

/-- The request with an option that is joined to its path by an equals sign, if
the argument is one. -/
def setJoined? (request : Request) (argument : String) : Option Request :=
  match argument.splitOn "=" with
  | option :: part :: parts =>
      (setPath? option).map fun put => put ("=".intercalate (part :: parts)) request
  | _ => none

/-- Reads the remaining arguments into a request.  `hasInput` says whether the
input path was among those already read, and `onlyInputs` whether two dashes
were. -/
def readArguments : List String → Bool → Bool → Request → Except UsageError Request
  | [], hasInput, _, request =>
      if hasInput then .ok request else .error .missingInput
  | argument :: rest, hasInput, onlyInputs, request =>
      if onlyInputs || !isOption argument then
        if hasInput then .error (.extraInput argument)
        else readArguments rest true onlyInputs { request with input := argument }
      else if argument = "--" then readArguments rest hasInput true request
      else
        match (request.switchOn? argument).or (request.setJoined? argument) with
        | some changed => readArguments rest hasInput onlyInputs changed
        | none =>
            match setPath? argument with
            | none => .error (.unknownOption argument)
            | some put =>
                match rest with
                | [] => .error (.missingValue argument)
                | path :: others =>
                    if isOption path then .error (.missingValue argument)
                    else readArguments others hasInput onlyInputs (put path request)

/-- The request that the arguments make. -/
def ofArguments (arguments : List String) : Except UsageError Request :=
  readArguments arguments false false { input := "" }

end Request

end DeclCheck.CommandLine
