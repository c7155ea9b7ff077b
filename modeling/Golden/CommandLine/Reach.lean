import Golden.CommandLine.Run

/-!
# Golden.CommandLine.Reach — what a run looks at

A run looks at few paths, and all of them are known before it starts: those its options name, those
derived from the boot file, and, once the configuration is known, where a difference picture would
go.  Whoever prepares the surroundings of a run has to show it what stands along these paths
(`Invocation.paths`, `Files.placesAlong`) and nothing else.
-/

namespace Golden

namespace Files

/-- The places a walk along names comes through, as long as the names are not too long. -/
def placesFrom : Place → List String → List Place
  | place, [] => [place]
  | place, name :: rest =>
    place :: match step place name with
      | .ok next => placesFrom next rest
      | .error _ => []

/-- The places a path leads through. -/
def placesAlong (fs : Files) (p : Path) : List Place := placesFrom (fs.start p) p.names

end Files

namespace CommandLine.Invocation

/-- Whether a run reads standard input. -/
def readsInput (i : Invocation) : Bool :=
  match i.command with
  | .text _ output _ _ => isStandardInput output
  | _ => false

/-- The path of the configuration, if there is one. -/
def configPaths (i : Invocation) : List Path := i.config.toList

/-- The paths a run looks at under a configuration. -/
def paths (i : Invocation) (c : Config) : List Path :=
  i.configPaths ++
    match i.command with
    | .text boot output expectation _ => [output, expectation.getD (BootFile.expectation boot)]
    | .screenshot boot capture reference _ directory test =>
      let pictures := (directory.or c.diffDirectory).toList.map fun d =>
        diffPicturePath d (test.getD (BootFile.testName boot))
      [capture.path, reference.getD (BootFile.reference boot)] ++ pictures
    | .bless boot capture reference => [capture.path, reference.getD (BootFile.reference boot)]

end CommandLine.Invocation

end Golden
