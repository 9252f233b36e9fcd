import HashGateway.Engine
import HashGateway.Gateway
import HashGateway.Launch.Start
import HashGateway.Wire.Link

/-!
# The program

The outer layer. It looks at the files that a command line may touch, decides with
`Launch.run` how the command line ends, and makes the files that are new. A server
that starts reads one request a line from the standard input, written as the method,
the address and the body with one space between them, and prints the status and the
body of each response.
-/

open HashGateway

/-- The names on the way to a path, seen from the working folder. -/
def placeOf (workingFolder : Host.Place) (text : String) : Host.Place :=
  let path := Host.Path.ofText text
  let start := if path.absolute then [] else workingFolder
  path.names.foldl (fun place name => if name = ".." then place.dropLast else place ++ [name]) start

/-- The text of a place. -/
def placeText (place : Host.Place) : String := "/" ++ "/".intercalate place

/-- What can be read from something that has been opened. A folder can be opened but not read. -/
def contentOf (handle : IO.FS.Handle) : IO Host.Node := do
  try
    return .file (← handle.readBinToEnd).toList
  catch _ => return .folder []

/-- What stands at a place. The bytes of devices are not read. -/
def look (place : Host.Place) : IO (Option Host.Node) := do
  try
    let handle ← IO.FS.Handle.mk (placeText place) .read
    if place.head? = some "dev" && 1 < place.length then return some (.file [])
    return some (← contentOf handle)
  catch _ => return none

/-- The tree with what stands on the way to a place. -/
def lookAlong (tree : Host.FileTree) (place : Host.Place) : IO Host.FileTree := do
  let mut tree := tree
  for n in List.range place.length do
    let here := place.take (n + 1)
    if (tree.node? here).isNone then
      if let some node ← look here then
        tree := { tree with root := tree.root.put here node }
  return tree

/-- The values of the lines of some settings. -/
def lineValues (content : Bytes) : List String :=
  match Utf8.decode content with
  | .error _ => []
  | .ok text =>
    (Settings.lines text).flatMap fun line =>
      ((Settings.arguments? line).getD []).map String.ofList

/-- The tree with everything that a command line may touch, and the places in it. -/
def snapshot (arguments : List String) : IO (Host.FileTree × List Host.Place) := do
  let workingFolder := placeOf [] (toString (← IO.currentDir))
  let mut tree : Host.FileTree := ⟨.folder [], workingFolder, some .usual⟩
  tree ← lookAlong tree workingFolder
  let file :=
    match Launch.Arguments.parse arguments with
    | .ok given => given.value? .config
    | .error _ => none
  match file with
  | none => return (tree, [])
  | some file =>
    tree ← lookAlong tree (placeOf workingFolder file)
    let mut places := []
    if let .ok content := tree.read file then
      for value in lineValues content do
        let place := placeOf workingFolder value
        tree ← lookAlong tree place
        places := place :: places
    return (tree, places)

/-- Writes the files that differ between two trees. -/
def writeChanges (before after : Host.FileTree) (places : List Host.Place) : IO Unit := do
  for place in places.eraseDups do
    if let some (.file content) := after.node? place then
      let same := match before.node? place with
        | some (.file old) => old == content
        | _ => false
      if !same then IO.FS.writeBinFile (placeText place) (ByteArray.mk content.toArray)

/-- The first number in a file of the system, after a word if one is given. -/
def systemNumber (file word : String) : IO Nat := do
  let text := (← IO.FS.readFile file).toList
  let words := (Text.words text).map String.ofList
  let words := if word.isEmpty then words else (words.dropWhile (· != word)).drop 1
  return ((words.head?.bind fun w => Numeral.digits? w.toList).getD 0)

/-- The time in microseconds. -/
def now : IO Nat := do
  let start ← systemNumber "/proc/stat" "btime"
  return start * 1000000 + (← IO.monoNanosNow) / 1000

/-- The request that a line writes. -/
def requestOf (line : String) (stamp : Nat) : Request :=
  let cs := line.toList
  let method := cs.takeWhile (· != ' ')
  let rest := (cs.dropWhile (· != ' ')).drop 1
  let url := rest.takeWhile (· != ' ')
  let body := (rest.dropWhile (· != ' ')).drop 1
  ⟨String.ofList method, String.ofList url, Utf8.encode (Text.trimEnd body), stamp⟩

/-- Serves the requests of the standard input with an engine. -/
def serveLines {σ : Type} (engine : Engine σ) (s : σ) (pageSize : Nat) : IO Unit := do
  let input ← IO.getStdin
  let mut s := s
  repeat
    let line ← input.getLine
    if line.isEmpty then break
    let (response, next) := (Gateway.serve pageSize (requestOf line (← now))).run engine s
    s := next
    IO.println s!"{response.status} {response.body}"

/-- The command line of the gateway. -/
def main (arguments : List String) : IO UInt32 := do
  let (tree, places) ← snapshot arguments
  -- This layer encrypts no connections, so it has no use for any private key.
  let surroundings : Launch.Surroundings :=
    ⟨← systemNumber "/proc/self/stat" "", fun _ => false⟩
  let (ending, changed) := Launch.run surroundings tree arguments
  writeChanges tree changed places
  match ending with
  | .stopped status output errors =>
    IO.print output
    for line in errors do IO.eprintln line
    return UInt32.ofNat status
  | .serving settings =>
    match settings.engine with
    | .memory => serveLines Engine.memory OrderedMap.empty settings.pageSize
    | .redis =>
      -- This layer opens no sockets, so a store over the network is out of its reach.
      let link : Wire.Link Unit := Wire.Link.unreachable .networkUnreachable
      serveLines (Wire.engine link) () settings.pageSize
    return 0
