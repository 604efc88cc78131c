set_option autoImplicit false

/-!
# Kinds of directives

A directive is a line of a rule file. Its kind decides with which sign and verb it begins, how the
rest of the line is laid out, and how several directives of that kind for one target combine.

## Main definitions

* `DirectiveKind` — the kinds, with `DirectiveKind.all`.
* `DirectiveKind.sign`, `DirectiveKind.verb`, `DirectiveKind.shape` — how a line is written.
* `DirectiveKind.resolution` — whether a later directive replaces an earlier one or joins it.
-/

namespace BindingRules

/-- What a directive does. -/
inductive DirectiveKind where
  /-- Excludes a module. -/
  | moduleExclude
  /-- Excludes a class, perhaps on one platform only. -/
  | classExclude
  /-- Excludes a function, perhaps on one platform only. -/
  | functionExclude
  /-- Excludes the functions of a given name in all scopes. -/
  | functionNameExclude
  /-- Excludes the functions with a given return type. -/
  | returnTypeExclude
  /-- Excludes an enumeration. -/
  | enumExclude
  /-- Excludes a type alias. -/
  | typedefExclude
  /-- Excludes a data member. -/
  | fieldExclude
  /-- Adds a header to a module. -/
  | headerAdd
  /-- Removes a header from a module. -/
  | headerRemove
  /-- Removes a header from all modules. -/
  | headerBan
  /-- Says that values of a type do not change. -/
  | immutable
  /-- Says that values of a type are not deleted. -/
  | noDelete
  /-- Renames a symbol in the bindings. -/
  | nameOverride
  /-- Gives a module a place in the generation order. -/
  | sortPriority
  /-- Gives the symbols of a module that contain a text a place among the others. -/
  | symbolPriority
  /-- Guards the edge between two modules by importing late. -/
  | importGuard
  /-- Guards the edge from a function to a module at the call. -/
  | callGuard
  /-- Drops the edge between two modules. -/
  | importExclude
  /-- Drops a base class. -/
  | baseExclude
  /-- Puts a comment at the top of a module. -/
  | topComment
  /-- States the return policy of a function. -/
  | returnPolicy
  /-- States which arguments a function keeps alive. -/
  | keepAlive
  /-- Inserts code before a module. -/
  | beforeModule
  /-- Inserts code before a type. -/
  | beforeType
  /-- Inserts code behind a type. -/
  | afterType
  /-- Replaces a text in a generated module. -/
  | patch
  /-- Generates a module in several parts. -/
  | split
  /-- Makes a type opaque. -/
  | opaqueType
  /-- Makes a type nested. -/
  | nested
  /-- Lets a type be cast down. -/
  | downcast
  /-- Leaves a symbol out of the output. -/
  | skip
  /-- Adds a directory in which headers are looked for. -/
  | includeDir
  /-- Adds an argument for the compiler on a platform. -/
  | compilerArg
  deriving DecidableEq, Repr

/-- How directives of one kind for one target combine. -/
inductive Resolution where
  /-- The last one counts. -/
  | exclusive
  /-- All of them count, in their order. -/
  | accumulating
  deriving DecidableEq, Repr

/-- How a line goes on behind its verb. -/
inductive Shape where
  /-- With the target alone. -/
  | bare
  /-- With the target, a colon and a value. -/
  | colon
  /-- With the target, an arrow and a value. -/
  | arrow
  deriving DecidableEq, Repr

namespace DirectiveKind

/-- All kinds of directives. -/
def all : List DirectiveKind :=
  [moduleExclude, classExclude, functionExclude, functionNameExclude, returnTypeExclude,
    enumExclude, typedefExclude, fieldExclude, headerAdd, headerRemove, headerBan, immutable,
    noDelete, nameOverride, sortPriority, symbolPriority, importGuard, callGuard, importExclude,
    baseExclude, topComment, returnPolicy, keepAlive, beforeModule, beforeType, afterType, patch,
    split, opaqueType, nested, downcast, skip, includeDir, compilerArg]

/-- The sign with which a line begins. -/
def sign : DirectiveKind → Char
  | moduleExclude | classExclude | functionExclude | functionNameExclude | returnTypeExclude
  | enumExclude | typedefExclude | fieldExclude | headerRemove | headerBan | importExclude
  | baseExclude => '-'
  | _ => '+'

/-- The verb behind the sign. -/
def verb : DirectiveKind → String
  | moduleExclude => "module"
  | classExclude => "class"
  | functionExclude => "function"
  | functionNameExclude => "function*"
  | returnTypeExclude => "rtype"
  | enumExclude => "enum"
  | typedefExclude => "typedef"
  | fieldExclude => "field"
  | headerAdd | headerRemove => "header"
  | headerBan => "header*"
  | immutable => "immutable"
  | noDelete => "nodelete"
  | nameOverride => "pname"
  | sortPriority | symbolPriority => "sort"
  | importGuard => "iguard"
  | callGuard => "cguard"
  | importExclude => "import"
  | baseExclude => "base"
  | topComment => "comment"
  | returnPolicy => "return_policy"
  | keepAlive => "keep_alive"
  | beforeModule => "before_module"
  | beforeType => "before_type"
  | afterType => "after_type"
  | patch => "patch"
  | split => "split"
  | opaqueType => "opaque"
  | nested => "nested"
  | downcast => "downcast"
  | skip => "skip"
  | includeDir => "include"
  | compilerArg => "arg"

/-- How a line goes on behind the verb. -/
def shape : DirectiveKind → Shape
  | headerAdd | headerRemove | sortPriority | symbolPriority | importGuard | importExclude
  | baseExclude | topComment | patch | compilerArg => .colon
  | nameOverride | callGuard | returnPolicy | keepAlive | beforeModule | beforeType
  | afterType => .arrow
  | _ => .bare

/-- Whether a later directive replaces an earlier one for the same target, or joins it. -/
def resolution : DirectiveKind → Resolution
  | moduleExclude | classExclude | functionExclude | functionNameExclude | returnTypeExclude
  | enumExclude | typedefExclude | fieldExclude | nameOverride | sortPriority | returnPolicy
  | keepAlive => .exclusive
  | _ => .accumulating

/-- Whether the verb may carry the name of a platform. -/
def takesPlatform : DirectiveKind → Bool
  | classExclude | functionExclude => true
  | _ => false

/-- Whether directives of the kind do nothing but exclude their target. -/
def isExclusion : DirectiveKind → Bool
  | moduleExclude | classExclude | functionExclude | functionNameExclude | enumExclude
  | typedefExclude | fieldExclude => true
  | _ => false

/-- The identifier of a kind. -/
def text : DirectiveKind → String
  | moduleExclude => "module_exclude"
  | classExclude => "class_exclude"
  | functionExclude => "function_exclude"
  | functionNameExclude => "function_name_exclude"
  | returnTypeExclude => "return_type_exclude"
  | enumExclude => "enum_exclude"
  | typedefExclude => "typedef_exclude"
  | fieldExclude => "field_exclude"
  | headerAdd => "header_add"
  | headerRemove => "header_remove"
  | headerBan => "header_ban"
  | immutable => "immutable"
  | noDelete => "no_delete"
  | nameOverride => "py_name_override"
  | sortPriority => "sort_priority"
  | symbolPriority => "symbol_priority"
  | importGuard => "import_guard"
  | callGuard => "call_guard"
  | importExclude => "import_exclude"
  | baseExclude => "base_exclude"
  | topComment => "top_comment"
  | returnPolicy => "return_policy"
  | keepAlive => "keep_alive"
  | beforeModule => "before_module"
  | beforeType => "before_type"
  | afterType => "after_type"
  | patch => "patch"
  | split => "split"
  | opaqueType => "opaque"
  | nested => "nested"
  | downcast => "downcast"
  | skip => "skip"
  | includeDir => "include_dir"
  | compilerArg => "compiler_arg"

end DirectiveKind

end BindingRules
