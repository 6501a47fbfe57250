/-!
# Help

What can be asked about the program: the program itself, and each of its commands. The text about
each says what it is for and how it is written, and lists what may stand on its command line.
-/

set_option autoImplicit false

namespace EntityStore.Command

/-- What help is about. -/
inductive Topic where
  | program
  | compile
  | find
  | plan
  | migrate
  | check
  | help
  deriving DecidableEq

namespace Topic

def ofName? : String → Option Topic
  | "compile" => some .compile
  | "find" => some .find
  | "plan" => some .plan
  | "migrate" => some .migrate
  | "check" => some .check
  | "help" => some .help
  | _ => none

def purpose : Topic → String
  | .program => "PostgreSQL schema reconciliation and filter compilation"
  | .compile => "Print the SELECT a filter compiles to"
  | .find => "Run a filter and print the rows"
  | .plan => "Show the DDL reconciliation would run"
  | .migrate => "Reconcile the database with the declared entities"
  | .check => "Exit non-zero when the database differs from the declarations"
  | .help => "Print this message or the help of the given subcommand(s)"

def usage : Topic → String
  | .program => "pgadapter [OPTIONS] <COMMAND>"
  | .compile => "pgadapter compile <ENTITY> [FILTER]"
  | .find => "pgadapter find [OPTIONS] <ENTITY> [FILTER]"
  | .plan => "pgadapter plan"
  | .migrate => "pgadapter migrate"
  | .check => "pgadapter check"
  | .help => "pgadapter help [COMMAND]..."

/-- One of the commands in a list, the purposes one below the other. -/
def entry (name : String) (topic : Topic) : String :=
  "  " ++ name ++ String.ofList (List.replicate (9 - name.length) ' ') ++ topic.purpose

/-- What may stand on a command line, in lines with headings. -/
def details : Topic → List String
  | .program =>
    [ "Commands:", entry "compile" .compile, entry "find" .find, entry "plan" .plan,
      entry "migrate" .migrate, entry "check" .check, entry "help" .help,
      "",
      "Options:",
      "  -c, --config <CONFIG>",
      "          Config file with connection settings and entity declarations",
      "      --database-url <DATABASE_URL>",
      "          Database connection URL (overrides the config file) [env: DATABASE_URL=]",
      "  -v, --verbose",
      "          Debug logging",
      "  -h, --help",
      "          Print help",
      "  -V, --version",
      "          Print version",
      "",
      "EXAMPLES:",
      "    pgadapter compile posts '\x7b\"where\": \x7b\"userId\": \x7b\"inq\": [1, 2]\x7d\x7d\x7d'",
      "    pgadapter find posts '\x7b\"order\": \"id DESC\", \"limit\": 5\x7d' --format json",
      "    pgadapter --database-url postgres://localhost/blog migrate" ]
  | .compile =>
    [ "Arguments:",
      "  <ENTITY>  ",
      "  [FILTER]  Filter as JSON: \x7b\"where\": ..., \"order\": ..., \"limit\": ..., "
        ++ "\"offset\": ...\x7d [default: \x7b\x7d]",
      "",
      "Options:",
      "  -h, --help  Print help" ]
  | .find =>
    [ "Arguments:",
      "  <ENTITY>  ",
      "  [FILTER]  [default: \x7b\x7d]",
      "",
      "Options:",
      "  -f, --format <FORMAT>  [default: table] [possible values: table, json]",
      "  -h, --help             Print help" ]
  | .plan | .migrate | .check => ["Options:", "  -h, --help  Print help"]
  | .help => ["Arguments:", "  [COMMAND]...  Print help for the subcommand(s)"]

def text (topic : Topic) : String :=
  String.join
    (([topic.purpose, "", "Usage: " ++ topic.usage, ""] ++ topic.details).map (· ++ "\n"))

end Topic

end EntityStore.Command
