import CompileFlags.Usage

/-!
# Help texts

What is said of each option, and the helps of the program and its commands: what a command does, how
it is called, and its options.
-/

namespace CompileFlags

/-- A text of several lines. -/
def textOf (lines : List String) : String := String.intercalate "\n" lines

namespace Usage

/-- The option `--color <mode>`. -/
def color : Usage where
  format := "--color <mode>"
  short := "One of: auto, always, never."
  long := textOf [
    "Whether to use color (default: auto).",
    "",
    "When enabled, the kind column of the catalog table is colorized so that path",
    "flags and their resolved values stand out from plain flags. The choices are:",
    "auto, always, never."]

/-- The option `-f, --format <format>`. -/
def outputFormat : Usage where
  format := "-f, --format <format>"
  short := "One of: json, lines."
  long := textOf [
    "The output format (default: json).",
    "",
    "With 'json', a single object of the form \x7b\"flags\": [...], \"do_cache\": bool\x7d",
    "is printed. With 'lines', each flag is printed on its own line and the cache",
    "hint is dropped. The latter is exactly the format of a 'compile_flags.txt'",
    "file, so its output can be redirected into one."]

/-- The option `-f, --filter <regex> ...`. -/
def filter : Usage where
  format := "-f, --filter <regex> ..."
  short := "Include catalog flags matching a regex pattern."
  long := textOf [
    "Include catalog flags matching a regex pattern.",
    "",
    "This flag may be given multiple times and works in concert with the",
    "-F/--filter-not flag. The -f flag introduces a whitelist regex pattern while",
    "-F introduces a blacklist regex pattern. If there is at least one whitelist",
    "pattern, then a flag must match at least one of them in order to be shown. The",
    "last pattern that matches a flag wins.",
    "",
    "Patterns are matched against the flag as written in the catalog, before any",
    "path is resolved. A path flag written as two entries is matched as both",
    "entries joined by a single space, e.g., '-I include'."]

/-- The option `-F, --filter-not <regex> ...`. -/
def filterNot : Usage where
  format := "-F, --filter-not <regex> ..."
  short := "Exclude catalog flags matching a regex pattern."
  long := textOf [
    "Exclude catalog flags matching a regex pattern.",
    "",
    "This flag may be given multiple times and each time it contributes a blacklist",
    "regex pattern. See -f/--filter for how patterns combine."]

/-- The option `-c, --catalog <path>`. -/
def catalog : Usage where
  format := "-c, --catalog <path>"
  short := "The catalog file to read flags from."
  long := textOf [
    "The catalog file to read flags from.",
    "",
    "A catalog is a TOML file listing the flags shared by every file in a project,",
    "the extra flags for C and C++ and which file names are parsed as C. When this",
    "flag is absent, a file named '.flagconf.toml' is searched for in the directory",
    "of the source file and then in each of its parent directories. If none is",
    "found, a built-in catalog is used."]

/-- The option `-r, --root <directory>`. -/
def root : Usage where
  format := "-r, --root <directory>"
  short := "The directory relative paths are resolved against."
  long := textOf [
    "The directory relative paths in flags are resolved against.",
    "",
    "Every path given to -I, -isystem, -iquote or --sysroot= that isn't already",
    "absolute is joined onto this directory. When absent, the directory containing",
    "the catalog file is used, or the current directory when the built-in catalog",
    "is in effect. A relative directory given here is itself resolved against the",
    "current directory."]

/-- The option `--no-cache`. -/
def noCache : Usage where
  format := "--no-cache"
  short := "Tell the host not to reuse the flags."
  long := textOf [
    "Tell the host not to reuse the flags.",
    "",
    "By default, the response carries the catalog's cache hint (which is true",
    "unless the catalog says otherwise). This forces the hint to false."]

/-- The option `--no-root`. -/
def noRoot : Usage where
  format := "--no-root"
  short := "Don't resolve any paths."
  long := textOf [
    "Don't resolve any paths.",
    "",
    "Every flag is printed exactly as given. This is mostly useful for checking how",
    "a flag list is split up by the shell."]

end Usage

namespace Help

/-- The options of the commands, in the order in which their helps tell them. -/
def catalogOptions : List Usage :=
  [Usage.catalog, Usage.color, Usage.filter, Usage.filterNot, Usage.root]

def classifyOptions : List Usage := [Usage.catalog]

def flagsOptions : List Usage := [Usage.catalog, Usage.outputFormat, Usage.noCache, Usage.root]

def normalizeOptions : List Usage := [Usage.root, Usage.noRoot]

def serveOptions : List Usage := [Usage.catalog, Usage.root]

/-- A help with the options at its end. -/
def help (lines : List String) (options : String) : String :=
  Text.trimmed (textOf (lines ++ [options]))

/-- The short help of `catalog`. -/
def catalogBrief : String := help [
  "Print the flags in a catalog as a table.",
  "",
  "USAGE:",
  "    flagconf catalog",
  "",
  "TIP:",
  "    use -h for short docs and --help for long docs",
  "",
  "OPTIONS:"] (Usage.table catalogOptions)

/-- The long help of `catalog`. -/
def catalogFull : String := help [
  "Print the flags in a catalog as a table.",
  "",
  "Each row shows one flag: what kind of flag it is, the flag as written in the",
  "catalog and the flag as it is handed to a host after its path (if any) has been",
  "resolved. A path flag written as two separate arguments (like '-I include') is",
  "shown as a single row. The project flags come first, followed by the extra",
  "flags for C and then for C++.",
  "",
  "The catalog is found the same way as for 'flagconf flags', with the search",
  "starting in the current directory.",
  "",
  "USAGE:",
  "    flagconf catalog",
  "",
  "OPTIONS:"] (Usage.manual catalogOptions)

/-- The help of `classify`. -/
def classify : String := help [
  "Print the language a source file is parsed as, either 'c' or 'c++'.",
  "",
  "Only the final component of the file name is considered. It is compared,",
  "case sensitively, with the catalog's 'c-files'. Anything not listed there",
  "(including an empty name) is C++.",
  "",
  "USAGE:",
  "    flagconf classify <file>",
  "",
  "OPTIONS:"] (Usage.table classifyOptions)

/-- The short help of `flags`. -/
def flagsBrief : String := help [
  "Print the compiler flags for parsing a single source file.",
  "",
  "USAGE:",
  "    flagconf flags <file>",
  "",
  "TIP:",
  "    use -h for short docs and --help for long docs",
  "",
  "OPTIONS:"] (Usage.table flagsOptions)

/-- The long help of `flags`. -/
def flagsFull : String := help [
  "Print the compiler flags for parsing a single source file.",
  "",
  "The flags are the catalog's project flags, with every relative path given to",
  "-I, -isystem, -iquote or --sysroot= resolved against the project root, followed",
  "by the dialect flags for the file. A file is parsed as C when its name (the",
  "final path component only) is listed in the catalog's 'c-files', and as C++",
  "otherwise.",
  "",
  "The file itself is never read and does not need to exist. Its location is only",
  "used to search for a catalog file when -c/--catalog isn't given.",
  "",
  "USAGE:",
  "    flagconf flags <file>",
  "",
  "OPTIONS:"] (Usage.manual flagsOptions)

/-- The help of `normalize`. -/
def normalize : String := help [
  "Resolve the relative paths in a list of compiler flags.",
  "",
  "Each path given to -I, -isystem or -iquote (as the next argument) or to",
  "--sysroot= (in the same argument) that isn't already absolute is joined onto",
  "the project root, which defaults to the current directory. All other flags are",
  "printed unchanged. One flag is printed per line, in the order given.",
  "",
  "Put the flags after '--' so that they aren't mistaken for options of this",
  "command.",
  "",
  "USAGE:",
  "    flagconf normalize [-r <directory>] -- <flag> ...",
  "",
  "OPTIONS:"] (Usage.table normalizeOptions)

/-- The help of `serve`. -/
def serve : String := help [
  "Answer flag requests read from stdin, one JSON object per line.",
  "",
  "Each line of input must be a request of the form",
  "",
  "    \x7b\"filename\": \"src/arq.h\", \"options\": \x7b\"cache\": false\x7d\x7d",
  "",
  "where 'options' (and each key inside it) may be omitted. Option keys other",
  "than 'cache' are accepted and ignored. For each request, exactly one line is",
  "written to stdout: either \x7b\"flags\": [...], \"do_cache\": bool\x7d, or",
  "\x7b\"error\": \"...\"\x7d when the line couldn't be decoded. Blank lines are",
  "skipped. Serving stops at the end of input.",
  "",
  "The catalog and project root are decided once, before the first request is",
  "read. Without -c/--catalog, the search for a catalog file starts in the",
  "current directory.",
  "",
  "USAGE:",
  "    flagconf serve",
  "",
  "OPTIONS:"] (Usage.table serveOptions)

/-- The help of `version`. -/
def version : String := textOf [
  "Print the version of this flagconf command.",
  "",
  "USAGE:",
  "    flagconf version"]

/-- The help of the program. -/
def program : String := textOf [
  "Derives the compiler flags a completion host should use to parse a C or C++",
  "source file.",
  "",
  "USAGE:",
  "    flagconf <command> ...",
  "",
  "COMMANDS:",
  "    catalog    Print the flags in a catalog as a table.",
  "    classify   Print the language a file is parsed as.",
  "    flags      Print the compiler flags for a single file.",
  "    normalize  Resolve the relative paths in a list of flags.",
  "    serve      Answer flag requests read from stdin as JSON lines.",
  "    version    Print the version of flagconf."]

end Help

end CompileFlags
