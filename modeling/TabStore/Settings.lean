import TabStore.Address
import TabStore.Files.Path

/-!
# Settings

Where the databases are, where statements are accepted, and what is logged.
-/

namespace TabStore

structure Settings where
  root : Path := ⟨"./databases"⟩
  listen : Address := .v4 [127, 0, 0, 1] 8888
  logLevel : String := "info"
deriving DecidableEq, Repr

namespace Settings

def override (settings : Settings) (root : Option Path) (listen : Option Address)
    (logLevel : Option String) : Settings :=
  { root := root.getD settings.root
    listen := listen.getD settings.listen
    logLevel := logLevel.getD settings.logLevel }

end Settings

end TabStore
