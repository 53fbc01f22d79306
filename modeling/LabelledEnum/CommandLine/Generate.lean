import LabelledEnum.CommandLine.Options
import LabelledEnum.CommandLine.Outcome
import LabelledEnum.CommandLine.Report
import LabelledEnum.Generation

/-!
# Making a class

The command that makes a class and prints it, previews it or saves it.

* `GenerateOptions.request`, `GenerateOptions.style`, `GenerateOptions.layout`: what the options ask
  for.
* `GenerateOptions.preview`, `GenerateOptions.foretell`, `GenerateOptions.save`: what can be done with
  the file.
* `GenerateOptions.run`: the command.
* `GenerateOptions.breaksDown`: whether there is no room for the class that the command writes.
* `GenerateOptions.filePath?`: the file that the command is about.
-/

namespace LabelledEnum.CommandLine.GenerateOptions

/-- The request that `options` make. On the command line, the start is never left out. -/
def request (options : GenerateOptions) : Request where
  classId := options.classId
  values := options.values
  inNamespace := options.inNamespace
  author := options.author
  description := options.description
  start := some options.start
  sort := options.sort

/-- The style that `options` ask for. -/
def style (options : GenerateOptions) : Style := { indentWidth := options.indent }

/-- The layout that `options` ask for: the aliases, or else the directory. -/
def layout (options : GenerateOptions) : Layout :=
  if options.aliases.isEmpty then .under options.outDir else .aliased options.aliases

/-- How the file at `path` would change, in the words of the program. -/
def changes (path : Text) : Option Text → Text
  | none => path ++ ": no changes\n"
  | some diff => "--- " ++ path ++ "\n" ++ diff

/-- What is printed on the changes of `file` on `disk`, if `options.diff` asks for that. -/
def preview (options : GenerateOptions) (disk : Disk) (file : CodeFile) : Except Failure Text :=
  if options.diff then (file.diff? disk).map (changes file.path) else .ok ""

/-- The line on what became of the file at `path`. -/
def operationLine (operation : Operation) (path : Text) : Text :=
  "[" ++ operation.word ++ "] " ++ path ++ "\n"

/-- Says what saving `file` on `disk` would come to, after what is already `printed`. -/
def foretell (disk : Disk) (printed : Text) (file : CodeFile) (log : List Event) : Outcome :=
  match file.operation disk with
  | .error failure => .fail disk printed failure log
  | .ok operation => .succeed disk (printed ++ operationLine operation file.path) log

/-- Saves `file` on `disk`, after what is already `printed`. Directories made before a failure stay. -/
def save (options : GenerateOptions) (disk : Disk) (printed : Text) (file : CodeFile)
    (log : List Event) : Outcome :=
  let saving := file.save disk options.overwrite
  match saving.result with
  | .error failure => .fail saving.disk printed failure (log ++ saving.log)
  | .ok operation =>
    .succeed saving.disk
      (printed ++ operationLine operation file.path ++ Generation.successMessage ++ "\n")
      (log ++ saving.log)

/-- What is reported on the path of `file`. -/
def locationLog (file : CodeFile) : List Event :=
  if Path.isAbsolute file.path then [.absolutePath file.path] else []

/-- Previews `file` if `options.diff` asks for that, and then saves it unless `options.dryRun` forbids it. -/
def deliver (options : GenerateOptions) (disk : Disk) (file : CodeFile) (log : List Event) :
    Outcome :=
  match options.preview disk file with
  | .error failure => .fail disk "" failure log
  | .ok printed =>
    if options.dryRun then foretell disk printed file log else options.save disk printed file log

/-- Makes the class that the checked `request` asks for: to be printed or to be delivered as a file. -/
def produce (options : GenerateOptions) (disk : Disk) (request : CheckedRequest) : Outcome :=
  let generation : Generation := ⟨request, options.style⟩
  if options.stdout then .succeed disk generation.source generation.constantsLog
  else
    match generation.file options.layout with
    | .error failure => .fail disk "" failure generation.constantsLog
    | .ok file => options.deliver disk file (generation.log options.layout ++ locationLog file)

/-- Makes the class that `options` ask for, once their request has passed the check. -/
def run (options : GenerateOptions) (disk : Disk) : Outcome :=
  match options.request.check with
  | .error rejection => .reject disk (rejection.report ++ "\n")
  | .ok request => options.produce disk request

/-- Whether the command breaks down because the class that it writes needs more bytes than `room`. A class is written
if it is to be printed, and otherwise once `options.layout` has found a place for it. -/
def breaksDown (room : Nat) (options : GenerateOptions) : Bool :=
  match options.request.check with
  | .error _ => false
  | .ok request =>
    let generation : Generation := ⟨request, options.style⟩
    (options.stdout || (generation.path options.layout).isOk) && (generation.source? room).isNone

/-- The path of the file that `options` are about, if they are about one. -/
def filePath? (options : GenerateOptions) : Option Text :=
  match options.request.check with
  | .error _ => none
  | .ok request => ((⟨request, options.style⟩ : Generation).path options.layout).toOption

end LabelledEnum.CommandLine.GenerateOptions
