import Golden.Path

/-!
# Golden.BootFile — where a test keeps its expectations

A test is run from its boot file.  What it should print stands in the file of the same name with the
extension `expected`, what it should show in the one with `expected.bmp`, and it is called by its
path without the root of the test tree and without `.prx`.
-/

namespace Golden.BootFile

def expectation (boot : Path) : Path := boot.withExtension "expected"

def reference (boot : Path) : Path := boot.withExtension "expected.bmp"

/-- `text` without `start` in front of it, if it starts so. -/
def dropStart (start text : List Char) : List Char :=
  if start.isPrefixOf text then text.drop start.length else text

/-- `text` without `finish` behind it, if it ends so. -/
def dropFinish (finish text : List Char) : List Char :=
  if finish.isSuffixOf text then text.take (text.length - finish.length) else text

/-- The name of the test with a given boot file; backslashes count as slashes. -/
def testName (boot : Path) : String :=
  let path := boot.text.toList.map fun c => if c = '\\' then '/' else c
  let name := dropStart "tests/".toList path
  let name := dropStart "pspautotests/tests/".toList name
  String.ofList (dropFinish ".prx".toList name)

end Golden.BootFile
