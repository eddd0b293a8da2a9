/-
  Texts about the grammar: help for people, and completions for shells.

  * `helpText`: what a command takes.
  * `Shell.completions`: a script that lets a shell complete the command line.
-/
import Vitals.CommandLine.Grammar

namespace Vitals.CommandLine

/-- Lines, each ended by a line break. -/
def lines (ls : List String) : String := String.join (ls.map (· ++ "\n"))

/-- Words with a space between any two. -/
def spaced (words : List String) : String := " ".intercalate words

/-! ## Help -/

/-- The name that stands for a value: its words in capitals. -/
def placeholder (name : String) : String :=
  String.ofList (name.toList.map fun c => if c = '-' then '_' else c.toUpper)

/-- An option as it is written. One without a short form is moved below the long forms of others. -/
def Opt.written (o : Opt) : String :=
  let short := (o.short.map fun c => s!"-{c}, ").getD "    "
  match o.role with
  | .value .. => s!"{short}--{o.long} <{placeholder o.long}>"
  | _ => s!"{short}--{o.long}"

/-- What is said about an option: what it is for, and what stands in for it. -/
def Opt.account (env : Environment) (o : Opt) : String :=
  match o.role with
  | .value _ standIn usual =>
    let current := standIn.map fun v =>
      let value := (env.get? v).getD ""
      s!"[env: {v.name}={value}]"
    spaced (o.about :: current.toList ++ (usual.map fun u => s!"[default: {u}]").toList)
  | _ => o.about

/-- An operand as it is written. -/
def Operand.written (o : Operand) : String :=
  let name := if o.required then s!"<{placeholder o.name}>" else s!"[{placeholder o.name}]"
  if o.repeated then s!"{name}..." else name

/-- What is said about an operand: what it is for, and which values it may have if they can be
listed. -/
def Operand.account (o : Operand) : String :=
  if o.kind = .shell then
    let values := ", ".intercalate (Shell.all.map Shell.name)
    s!"{o.about} [possible values: {values}]"
  else o.about

/-- The lines of a part of a help text, in two columns; none if it is empty. -/
def helpPart (title : String) (items : List (String × String)) : List String :=
  if items.isEmpty then []
  else
    let width := (items.map fun item => item.1.length).foldl max 0
    "" :: s!"{title}:" :: items.map fun (item, account) =>
      "  " ++ item ++ String.ofList (List.replicate (width + 2 - item.length) ' ') ++ account

/-- How a command is used. The options for help and version are not mentioned. -/
def Spec.usage (s : Spec) (commands : List (String × String)) : String :=
  let takesOptions := s.options.any fun o => o.role ≠ .help ∧ o.role ≠ .version
  spaced (program :: s.path ++ (if takesOptions then ["[OPTIONS]"] else []) ++
    (if commands.isEmpty then [] else ["<COMMAND>"]) ++ (s.operand.map (·.written)).toList)

/-- What a command takes, with commands below it. -/
def Spec.help (env : Environment) (s : Spec) (commands : List (String × String)) : String :=
  lines (s.about :: "" :: s!"Usage: {s.usage commands}" ::
    helpPart "Commands" commands ++
    helpPart "Arguments" (s.operand.map fun o => (o.written, o.account)).toList ++
    helpPart "Options" (s.options.map fun o => (o.written, o.account env)))

/-- The help about a path: that of a command, or that of the command for help itself. -/
def helpText (env : Environment) (path : List String) : String :=
  match spec? path with
  | some s =>
    let specs := match below path with
      | [] => []
      | specs => specs ++ [helpSpec path]
    s.help env (specs.map fun c => (c.name, c.about))
  | none => (helpSpec path.dropLast).help env []

/-- The name of the program and its version. -/
def versionText : String := s!"{program} {version}\n"

/-! ## Completions -/

/-- The words that may come next after a path: commands, options, and values that can be listed. -/
def Spec.words (s : Spec) : List String :=
  let shells := match s.operand with
    | some o => if o.kind = .shell then Shell.all.map Shell.name else []
    | none => []
  namesBelow s.path ++ shells ++ s.options.flatMap fun o =>
    s!"--{o.long}" :: (o.short.map fun c => s!"-{c}").toList

/-- A path as one word, the name of the program first. -/
def Spec.key (s : Spec) (separator : String) : String := separator.intercalate (program :: s.path)

/-- A path as a word with slashes. -/
def Spec.place (s : Spec) : String := s.key "/"

/-- The paths of all commands, as patterns of one case. -/
def knownPlaces : String :=
  "|".intercalate ((grammar.filter fun s => !s.path.isEmpty).map (·.place))

/-- A text in single quotes for a shell that has no escapes in them. -/
def singleQuoted (s : String) : String := s!"'{s}'"

/-- The script for bash: it follows the names of commands typed so far, and offers their words. -/
def bashScript : String :=
  let cases := grammar.map fun s =>
    s!"        {s.place}) words={singleQuoted (spaced s.words)} ;;"
  lines ([
    "_telewire() \x7b",
    "    local place=telewire word words",
    "    for word in \"$\x7bCOMP_WORDS[@]:1:COMP_CWORD-1\x7d\"; do",
    "        case \"$place/$word\" in",
    s!"        {knownPlaces}) place=\"$place/$word\" ;;",
    "        esac",
    "    done",
    "    case \"$place\" in"] ++ cases ++ [
    "    esac",
    "    COMPREPLY=($(compgen -W \"$words\" -- \"$\x7bCOMP_WORDS[COMP_CWORD]\x7d\"))",
    "\x7d",
    "complete -F _telewire telewire"])

/-- The condition under which fish offers the words of a command. -/
def fishCondition (s : Spec) : String :=
  match s.path.getLast? with
  | none => "__fish_use_subcommand"
  | some name => s!"__fish_seen_subcommand_from {name}"

/-- The lines for fish about one command. -/
def fishLines (s : Spec) : List String :=
  let head := s!"complete -c {program} -n \"{fishCondition s}\""
  let commands := (below s.path).map fun c => s!"{head} -f -a {c.name} -d {singleQuoted c.about}"
  let help := if commands.isEmpty then [] else [s!"{head} -f -a {helpName}"]
  let options := s.options.map fun o =>
    let short := (o.short.map fun c => s!" -s {c}").getD ""
    let value := match o.role with
      | .value .. => " -r"
      | _ => ""
    s!"{head} -l {o.long}{short}{value} -d {singleQuoted o.about}"
  commands ++ help ++ options

/-- The script for fish. -/
def fishScript : String := lines (grammar.flatMap fishLines)

/-- The text of an item for zsh, where brackets and colons divide. -/
def zshText (s : String) : String :=
  String.ofList (s.toList.filter fun c => !"[]:`".toList.contains c)

/-- The lines for zsh about one command. -/
def zshLines (s : Spec) : List String :=
  let options := s.options.flatMap fun o =>
    let item := fun form : String => singleQuoted s!"{form}[{zshText o.about}]"
    item s!"--{o.long}" :: (o.short.map fun c => item s!"-{c}").toList
  let operand := s.operand.toList.map fun o =>
    singleQuoted s!"*:{o.name} -- {zshText o.about}:({spaced s.words})"
  let commands := if (namesBelow s.path).isEmpty then []
    else [singleQuoted s!"1:command:({spaced (namesBelow s.path)})"]
  [s!"    {s.place}) _arguments {spaced (options ++ commands ++ operand)} ;;"]

/-- The script for zsh. -/
def zshScript : String :=
  lines ([
    "#compdef telewire",
    "_telewire() \x7b",
    "    local place=telewire word",
    "    for word in $\x7bwords[2,CURRENT-1]\x7d; do",
    "        case \"$place/$word\" in",
    s!"        {knownPlaces}) place=\"$place/$word\" ;;",
    "        esac",
    "    done",
    "    case \"$place\" in"] ++ grammar.flatMap zshLines ++ [
    "    esac",
    "\x7d",
    "compdef _telewire telewire"])

/-- The lines of a table from paths to words, each written by `entry`. -/
def wordTable (entry : String → List String → String) : List String :=
  grammar.map fun s => entry (s.key ";") s.words

/-- The script for elvish. -/
def elvishScript : String :=
  lines ([
    "use str",
    "set edit:completion:arg-completer[telewire] = \x7b|@words|",
    "    var offered = [&"] ++
    wordTable (fun key words =>
      s!"        &{singleQuoted key}=[{spaced (words.map singleQuoted)}]") ++ [
    "    ]",
    "    var place = 'telewire'",
    "    for word $words[1..-1] \x7b",
    "        if (has-key $offered $place';'$word) \x7b set place = $place';'$word \x7d",
    "    \x7d",
    "    all $offered[$place]",
    "\x7d"])

/-- The script for PowerShell. -/
def powershellScript : String :=
  lines ([
    "Register-ArgumentCompleter -Native -CommandName 'telewire' -ScriptBlock \x7b",
    "    param($wordToComplete, $commandAst, $cursorPosition)",
    "    $offered = @\x7b"] ++
    wordTable (fun key words =>
      let quoted := ", ".intercalate (words.map singleQuoted)
      s!"        {singleQuoted key} = @({quoted})") ++ [
    "    \x7d",
    "    $place = 'telewire'",
    "    foreach ($element in $commandAst.CommandElements) \x7b",
    "        $next = \"$place;$element\"",
    "        if ($offered.ContainsKey($next)) \x7b $place = $next \x7d",
    "    \x7d",
    "    $offered[$place] | Where-Object \x7b $_ -like \"$wordToComplete*\" \x7d",
    "\x7d"])

/-- A script that lets a shell complete the command line. -/
def Shell.completions : Shell → String
  | bash => bashScript
  | elvish => elvishScript
  | fish => fishScript
  | powershell => powershellScript
  | zsh => zshScript

end Vitals.CommandLine
