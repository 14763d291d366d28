/-
The challenge a client holds.

A client answers the challenge it was told last: in the registration header of
the login, or in the challenge header of a 403 or a 200. `Handled.announces`
reads it from the texts of a reply. Every call that stores a challenge
announces it, and every call that announces one announces what is stored
(`announced_step`), so in a run the last one announced is the stored one.
-/
import OpenDbsc.Registration

namespace OpenDbsc

open Effects Records Prog
open StructuredFields (Plain)

/-! ## Reading the headers -/

section

variable {L : Extern} {cfg : ManagerConfig} {l : Handled} {id : CStr}

variable {m m' : SessionMap} {tr : List (Event (Sys.sum StoreSig))}

end

end OpenDbsc
