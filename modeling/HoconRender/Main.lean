import HoconRender.CommandLine.Run

/-
The program. It takes a picture of the files that a command line may read and of the environment,
runs on that, and prints.
-/
namespace HoconRender.Program

def string (t : Text) : String :=
  String.ofList (t.map fun c => if Text.isScalar c then Char.ofNat c else Char.ofNat 0xFFFD)

def bytesOf (bytes : ByteArray) : List Nat := bytes.toList.map UInt8.toNat

def bytesIn (file : String) : IO (List Nat) := do
  return bytesOf (← try IO.FS.readBinFile file catch _ => pure .empty)

def newline : Nat := 0x0A
def tab : Nat := 0x09
def colon : Nat := 0x3A

def environment : IO Environment := do
  let entries := (Text.splitAt 0 (← bytesIn "/proc/self/environ")).filter (!·.isEmpty)
  return Entries.ofList (entries.map fun entry =>
    let (name, value) := Text.cutAt CommandLine.equalsSign entry
    (Text.ofStored name, Text.ofStored (value.getD [])))

def userIn (status : List Nat) : Option Text :=
  (Text.splitAt newline status).findSome? fun line =>
    match Text.splitAt tab line with
    | label :: user :: _ => if label == Text.ofString "Uid:" then some user else none
    | _ => none

def homeIn (accounts : List Nat) (user : Text) : Option Text :=
  (Text.splitAt newline accounts).findSome? fun line =>
    match Text.splitAt colon line with
    | [_, _, own, _, _, home, _] => if own == user then some (Text.ofStored home) else none
    | _ => none

def accountHome? : IO (Option Text) := do
  let user := userIn (← bytesIn "/proc/self/status")
  return user.bind (homeIn (← bytesIn "/etc/passwd"))

/-- Puts what a path leads to, and the directories on the way, into the picture. -/
def picture (directory : Location) (files : Files) (path : Path) : IO Files := do
  let start : Location := if path.isAbsolute then [] else directory
  let found := (← IO.currentDir) / string path.text
  let above (files : Files) : Files :=
    (path.parts.dropLast.foldl
      (fun (files, location) name =>
        let next := location.follow [name]
        (files.makeDirectory next, next)) (files, start)).1
  let location := start.follow path.parts
  if ← found.isDir then return (above files).makeDirectory location
  try
    let bytes ← IO.FS.readBinFile found
    return (above files).write location (bytesOf bytes)
  catch _ => return files

def filesRead (world : World) : CommandLine.Invocation → List Path
  | .inspect arguments =>
    let chosen := match arguments.request.configFile with
      | some (.path path) => some path
      | some (.notAPath _) => none
      | none => world.currentDirectory?.map World.projectFileIn
    (world.home?.map World.userFileIn).toList ++ chosen.toList
  | _ => []

def worldFor (line : List Text) : IO World := do
  let directory := (Path.ofText (Text.ofString (← IO.currentDir).toString)).parts
  let world : World := ⟨Files.makeDirectory [] directory, ← environment, directory,
    ← accountHome?⟩
  match CommandLine.parse line with
  | .ok invocation =>
    let files ← (filesRead world invocation).foldlM (picture directory) world.files
    return { world with files }
  | .error _ => return world

end HoconRender.Program

open HoconRender in
def main (arguments : List String) : IO UInt32 := do
  let line := arguments.map Text.ofString
  let run := CommandLine.run (← Program.worldFor line) line
  IO.print (Program.string run.output)
  IO.eprint (Program.string run.errors)
  match run.ending with
  | .exit code => return code.toUInt32
  | .uncaught failure =>
    IO.eprintln (Program.string (failure.message))
    return 1
