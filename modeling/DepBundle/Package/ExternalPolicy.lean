import DepBundle.Data.OrderedSet
import DepBundle.Package.Specifier
/-!
# Packages — what is left to the host

Some packages cannot be bundled: they load native code or ship programs
of their own. A policy adds a project's own to them. Independently, a
compile may leave every bare specifier to the host.
-/

namespace DepBundle.Package

/-- Packages that load native code or ship programs of their own. -/
def alwaysExternal : List String :=
  ["sharp", "canvas", "bcrypt", "argon2", "sqlite3", "better-sqlite3", "bufferutil",
   "utf-8-validate", "fsevents", "esbuild", "@swc/core", "lightningcss", "playwright-core",
   "puppeteer", "@prisma/client", "prisma"]

/-- The packages a project leaves to the host on top of those that always are. -/
structure ExternalPolicy where
  /-- The project's own choice. -/
  custom : OrderedSet String

namespace ExternalPolicy

/-- Whether a specifier points into a package of the policy. -/
def isExternal (policy : ExternalPolicy) (specifier : String) : Bool :=
  (alwaysExternal ++ policy.custom.toList).any (matchesPackage specifier)

/-- Every package of the policy once, those that always are external first. -/
def all (policy : ExternalPolicy) : List String :=
  alwaysExternal ++ policy.custom.toList.filter (!alwaysExternal.contains ·)

end ExternalPolicy

/-- Which specifiers a compile leaves for the host to resolve. -/
inductive ExternalRule where
  /-- Every bare one. -/
  | bareSpecifiers
  /-- Those that point into one of these packages. -/
  | packages (names : List String)
deriving Repr, DecidableEq

/-- Whether a rule leaves a specifier to the host. -/
def ExternalRule.isExternal : ExternalRule → String → Bool
  | bareSpecifiers, specifier => isBare specifier
  | packages names, specifier => names.any (matchesPackage specifier)

end DepBundle.Package
