import LinkedJson.CommandLine.Command

/-!
How the program is called, as it says itself.
-/

namespace LinkedJson.CommandLine

/-- An option with its names, and a word for its argument. -/
def Switch.usage (s : Switch) : String :=
  "[" ++ " | ".intercalate s.names ++ (if s.takesArgument then " VALUE]" else "]")

def Verb.usage (v : Verb) : String :=
  " ".intercalate (["usage:", program, v.name] ++ v.switches.map Switch.usage ++ ["input"]) ++ "\n"

def usage : String :=
  s!"usage: {program} [-h | --help] command ...\n" ++ String.join (Verb.all.map Verb.usage)

end LinkedJson.CommandLine
