import DepBundle.Package.Bindings
import DepBundle.Text.Quoted
/-!
# Packages — stand-in modules

A package is bundled through a module written for it, which re-exports
exactly the bindings asked of the package.
-/

namespace DepBundle.Package

/-- The source of the module that stands in for a package. Where no
binding is asked for, it only keeps what loading the package does. -/
def synthesize (package : String) : Bindings → String
  | .all => "export * from " ++ Text.quoted package ++ ";\n"
  | .named names =>
    if names.isEmpty then "import " ++ Text.quoted package ++ ";\n"
    else "export \x7b " ++ ", ".intercalate (names.toList.map Text.clauseName) ++ " \x7d from "
      ++ Text.quoted package ++ ";\n"

end DepBundle.Package
