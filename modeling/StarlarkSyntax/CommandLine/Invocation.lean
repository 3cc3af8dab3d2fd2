/-!
# Invocations

What the words of a command line ask for. Flags may stand anywhere among the other words, until a
lone `--` says that no more flags follow; a lone hyphen is no flag. The first of the other words
names what to do:

* `check FILE...` looks for errors in files, of which there is at least one;
* `eval CODE` shows the tree of some code;
* `repl`, or nothing at all, shows the tree of whatever is typed in.
-/

set_option autoImplicit false

namespace StarlarkSyntax.CommandLine

/-- What is shown of each input, and how. -/
structure Options where
  /-- Show the tree, even where only errors would be shown. -/
  tree : Bool := false
  /-- Show the tokens. -/
  tokens : Bool := false
  /-- Report errors in lines that other programs can read. -/
  plain : Bool := false
deriving DecidableEq, Inhabited

/-- What to do. -/
inductive Action where
  | check (paths : List String)
  | eval (code : String)
  | repl
deriving DecidableEq, Inhabited

/-- What a command line asks for. -/
structure Invocation where
  options : Options
  action : Action
deriving DecidableEq, Inhabited

/-- Does the word ask for more to be logged? It may do so more than once. -/
def asksForLog (word : String) : Bool :=
  word == "--verbose" ||
    match word.toList with
    | '-' :: 'v' :: more => more.all (· == 'v')
    | _ => false

/-- The options with what a flag asks for; nothing is logged, so that asking for it is no change. -/
def Options.withFlag? (options : Options) (word : String) : Option Options :=
  if word == "--dump" then some { options with tree := true }
  else if word == "--tokens" then some { options with tokens := true }
  else if word == "--plain" then some { options with plain := true }
  else if asksForLog word then some options
  else none

/-- Is the word a flag, as long as flags may follow? -/
def isFlag (word : String) : Bool :=
  word.toList.head? == some '-' && word != "-"

/-- Takes the flags out of the words of a command line. There is nothing to return if a flag has no
meaning. -/
def takeFlags? (options : Options) : List String → Option (Options × List String)
  | [] => some (options, [])
  | word :: words =>
    if word == "--" then some (options, words)
    else if isFlag word then
      (options.withFlag? word).bind fun options => takeFlags? options words
    else (takeFlags? options words).map fun (options, others) => (options, word :: others)

/-- What the words that are no flags ask for. -/
def Action.ofWords? : List String → Option Action
  | [] => some .repl
  | ["repl"] => some .repl
  | ["eval", code] => some (.eval code)
  | "check" :: path :: paths => some (.check (path :: paths))
  | _ => none

/-- What the words of a command line ask for, if they ask for anything. -/
def Invocation.ofWords? (words : List String) : Option Invocation :=
  (takeFlags? {} words).bind fun (options, others) =>
    (Action.ofWords? others).map (Invocation.mk options)

/-- What is said about a command line that asks for nothing. -/
def usage : List Char :=
  "usage: starlark [--dump] [--tokens] [--plain] [check FILE... | eval CODE | repl]\n".toList

end StarlarkSyntax.CommandLine
