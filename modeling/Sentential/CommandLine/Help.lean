/-!
# Help

The usage text and the help text of the command line.
-/

namespace Sentential.CommandLine

/-- The name of the program. -/
def programName : String := "tabula"

/-- The lines that show how the program is called. -/
def usageLines : List String :=
  ["usage: tabula [-h] [-f FILE] [-e FORMULA] [--single] [--no-color]",
    "              [--max-variables N] [-v] [--debug]"]

/-- The lines that list the options. -/
def optionLines : List String :=
  ["options:",
    "  -h, --help            show this help message and exit",
    "  -f FILE, --file FILE  Read formulas from file (one per line)",
    "  -e FORMULA, --expr FORMULA",
    "                        Formula to evaluate (repeatable, skips reading stdin)",
    "  --single              Evaluate each formula once instead of printing a truth",
    "                        table",
    "  --no-color            Disable colored T/F values",
    "  --max-variables N     Refuse formulas with more than N variables (default:",
    "                        16)",
    "  -v, --verbose         Enable verbose output",
    "  --debug               Enable debug output (overrides --verbose)"]

/-- The lines with examples and the syntax of formulas. -/
def closingLines : List String :=
  ["Examples:",
    "  echo \"A and B\" | python run_tabula.py",
    "  python run_tabula.py -e \"A imply B\" -e \"not (A xor B)\"",
    "  python run_tabula.py -f formulas.txt --no-color",
    "  python run_tabula.py --single -e \"true or false\"",
    "",
    "Formula syntax:",
    "  Operators (case-insensitive): not, and, or, xor, imply/implies,",
    "  equals, notequals. Constants: true, false. Parentheses group.",
    "  Quote names containing spaces with backticks: `light on` and door",
    "        "]

/-- The help text. -/
def helpText : String :=
  String.join ((usageLines ++ ["", "Tabula propositional truth table generator", ""] ++ optionLines
    ++ [""] ++ closingLines).map (· ++ "\n"))

/-- The text for a usage fault with the given wording. -/
def usageText (message : String) : String :=
  String.join (usageLines.map (· ++ "\n")) ++ programName ++ ": error: " ++ message ++ "\n"

end Sentential.CommandLine
