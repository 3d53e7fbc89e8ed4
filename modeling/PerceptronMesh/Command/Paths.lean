import PerceptronMesh.Command.Execute

/-!
The paths that a command reads or writes, so that files can be fetched before it
is carried out.
-/

namespace PerceptronMesh.Command

namespace Request

/-- The network file and the configuration that is looked for first. -/
def ownPaths : Request → List Path
  | .compile network config _ | .run network config =>
    let directory := config.getD (network.parent.getD (.ofString ""))
    [network, directory.join Configuration.fileName]
  | .help | .version => []

def network? : Request → Option Path
  | .compile network _ _ | .run network _ => some network
  | .help | .version => none

end Request

/-- The files that a network file names. -/
def NetworkFile.dataPaths (file : NetworkFile) : List Path :=
  (file.examplesFile.toList ++ file.weightsFile.toList ++
    file.stages.filterMap StageEntry.outputFile?).map file.resolve

/-- The paths that the network file of a request names, if it can be read. -/
def Request.dataPaths (request : Request) (files : FileTree) : List Path :=
  match request.network?.map (NetworkFile.load files) with
  | some (.ok file) => NetworkFile.dataPaths file
  | _ => []

/-- The path with a number of its steps. -/
def upTo (path : Path) (count : Nat) : Path :=
  let root := if path.isAbsolute then "/" else ""
  .ofString (root ++ String.intercalate "/" (path.steps.take count))

/-- The directories on the way to a path, and the path. -/
def waypoints (path : Path) : List Path :=
  (List.range path.steps.length).map fun i => upTo path (i + 1)

/-- A path that leads to a location. -/
def pathTo : Location → Path
  | "/" :: steps => .ofString ("/" ++ String.intercalate "/" steps)
  | steps => .ofString (String.intercalate "/" steps)

/-- The files of one tree that another does not have, or has with other bytes. -/
def changes (before after : FileTree) : List (Path × ByteArray) :=
  (after.files.filter fun (location, bytes) =>
    (before.file? location).all (·.data != bytes.data)).map fun (location, bytes) =>
      (pathTo location, bytes)

end PerceptronMesh.Command
