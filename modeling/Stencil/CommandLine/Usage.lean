/-!
# Usage

The text that explains the commands.
-/

namespace Stencil.CommandLine

/-- The lines that explain the commands. -/
def usage : List String :=
  ["",
   "rategen - schema-driven macro templates for rating programs",
   "",
   "USAGE:",
   "    rategen <COMMAND> [OPTIONS]",
   "",
   "COMMANDS:",
   "    generate <template> <output>     Run one template",
   "    check <template>...              Report macros unknown to the backend",
   "    triggers                         List the backend's triggers",
   "    regen [--force]                  Run stale jobs of the current project",
   "    status [--json]                  Show stale project outputs",
   "    schema [project|schema]          Print JSON schema of a config file",
   "    version                          Print version",
   "",
   "GENERATE OPTIONS:",
   "    --lob <code>                      Insurance line (required)",
   "    --proc <tag>                      Process type (required)",
   "    --table <name>                    Table bound before the first line",
   "    --schema <file>                   Schema YAML for table metadata",
   "    --program <name>                  Program name (default: output stem)",
   "    --prefix <prefix>                 Linkage prefix for &<| and &!|",
   "    --sub                             Run as a sub-template (no final flush)",
   "    --max-iterations <n>              Resolution passes per line (default: 10)",
   "    --max-depth <n>                   Sub-template nesting bound (default: 16)",
   "    --unknown <keep|remove>           Unknown macro policy (default: keep)",
   "",
   "OPTIONS:",
   "    --backend <cobol|java>            Target backend (default: cobol)",
   "    --json                            JSON output (generate, check, triggers, regen, status)",
   "    -v, --verbose                     Debug logging (RUST_LOG overrides)",
   "",
   "EXAMPLES:",
   "    rategen generate templates/rate.cbt out/PGUOBK3.cbl --lob BOP --proc RATE --table BOP_RATE --schema schema.yaml",
   "    rategen check templates/*.cbt --backend cobol",
   "    rategen triggers --backend java",
   "    rategen regen --force",
   ""]

end Stencil.CommandLine
