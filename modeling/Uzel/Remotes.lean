import Uzel.Foundation.Separated
import Uzel.Server

/-! # The configured remotes (`uconfig.cpp`)

The configuration file is read into a property tree.  The hosts to connect to stand in one entry of it,
separated by commas; what the pattern `\s*([,])\s*` does not match is a host.
-/

namespace Uzel

open Foundation

namespace UConfig

/-- The class `\s` of the pattern. -/
def isSpace (c : Char) : Bool := c == ' ' || ('\t' ≤ c && c ≤ '\r')

/-- `remotes()`; without the entry it raises. -/
def remotes (pt : PTree) : Option (List String) :=
  (pt.getChild ["remotes", "name"]).map fun rs =>
    (Separated.tokens isSpace ',' rs.data.toList).map String.ofList

end UConfig

/-- The constructor; an exception of it ends the process. -/
def Server.construct (config : UConfig) (pt : PTree) (now : Nat) : Option Server :=
  (UConfig.remotes pt).map (Server.initial config now)

end Uzel
