/-!
# Chunks — the helpers every chunk brings along

The script that runs modules out of a registry. Records are shared between
the registries of chunks, so a module that one chunk has run counts as run
for all.
-/

namespace DepBundle.ChunkGraph

/-- The lines of the helpers. -/
def helperLines : List String :=
  ["function __trimpack_require(key) \x7b",
   "  const record = __trimpack_modules[key];",
   "  if (record === undefined) \x7b",
   "    throw new Error(\"Module \" + JSON.stringify(key) + \" is not part of this bundle\");",
   "  \x7d",
   "  if (record.module === undefined) \x7b",
   "    const module = \x7b exports: \x7b\x7d \x7d;",
   "    record.module = module;",
   "    if (record.esm) \x7b",
   "      Object.defineProperty(module.exports, \"__esModule\", \x7b value: true \x7d);",
   "    \x7d",
   "    record.init.call(module.exports, module, module.exports, __trimpack_missing_require);",
   "  \x7d",
   "  return record.module.exports;",
   "\x7d",
   "",
   "function __trimpack_interop(exports) \x7b",
   "  if (exports && exports.__esModule) \x7b",
   "    return exports;",
   "  \x7d",
   "  const namespace = \x7b default: exports \x7d;",
   "  if (exports && (typeof exports === \"object\" || typeof exports === \"function\")) \x7b",
   "    for (const name of Object.keys(exports)) \x7b",
   "      if (name !== \"default\") \x7b",
   "        Object.defineProperty(namespace, name, \x7b enumerable: true, get: () => exports[name] \x7d);",
   "      \x7d",
   "    \x7d",
   "  \x7d",
   "  return namespace;",
   "\x7d",
   "",
   "function __trimpack_export(target, getters) \x7b",
   "  for (const name of Object.keys(getters)) \x7b",
   "    Object.defineProperty(target, name, \x7b enumerable: true, get: getters[name] \x7d);",
   "  \x7d",
   "\x7d",
   "",
   "function __trimpack_reexport(target, source) \x7b",
   "  for (const name of Object.keys(source)) \x7b",
   "    if (name !== \"default\" && !Object.prototype.hasOwnProperty.call(target, name)) \x7b",
   "      Object.defineProperty(target, name, \x7b enumerable: true, get: () => source[name] \x7d);",
   "    \x7d",
   "  \x7d",
   "\x7d",
   "",
   "function __trimpack_external(specifier) \x7b",
   "  return __trimpack_externals[specifier];",
   "\x7d",
   "",
   "function __trimpack_external_require(specifier) \x7b",
   "  const namespace = __trimpack_externals[specifier];",
   "  return namespace && \"default\" in namespace ? namespace.default : namespace;",
   "\x7d",
   "",
   "function __trimpack_load(key) \x7b",
   "  return __trimpack_interop(__trimpack_require(key));",
   "\x7d",
   "",
   "function __trimpack_dynamic(key) \x7b",
   "  const chunk = __trimpack_dynamic_chunks[key];",
   "  if (chunk === undefined) \x7b",
   "    return Promise.resolve().then(() => __trimpack_load(key));",
   "  \x7d",
   "  return import(chunk).then((loaded) => loaded.__trimpack_load(key));",
   "\x7d",
   "",
   "function __trimpack_missing_require(specifier) \x7b",
   "  throw new Error(\"Cannot find module \" + JSON.stringify(specifier));",
   "\x7d"]

/-- The text of the helpers. -/
def helpers : String := String.join (helperLines.map (· ++ "\n"))

end DepBundle.ChunkGraph
