/-
TwinRegion.Outside.Libraries — the libraries that the program runs with.
-/
import TwinRegion.Outside.Matcher
import TwinRegion.Outside.Toml

namespace TwinRegion

instance : PatternLibrary := Matcher.library

instance : TomlReader := Toml.reader

end TwinRegion
