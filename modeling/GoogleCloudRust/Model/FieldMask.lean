import Mathlib.Data.List.Basic

/-! # Field masks

Model of the JSON encoding in `field_mask.rs`. -/

namespace GoogleCloudRust.Wkt

structure FieldMask where
  paths : List (List Char)
deriving DecidableEq, Repr

namespace FieldMask

/-- The loop of `to_camel_case`, with `capitalize_next`. -/
def camelLoop (capitalizeNext : Bool) : List Char → List Char
  | [] => []
  | c :: snake =>
      if c = '_' then camelLoop true snake
      else if capitalizeNext then c.toUpper :: camelLoop false snake
      else c :: camelLoop capitalizeNext snake

def toCamelCase (snake : List Char) : List Char := camelLoop false snake

def toSnakeCase : List Char → List Char
  | [] => []
  | c :: camel =>
      if c.isUpper then '_' :: c.toLower :: toSnakeCase camel
      else c :: toSnakeCase camel

/-- The JSON string: the paths, joined by commas. -/
def serialize (mask : FieldMask) : List Char :=
  [','].intercalate (mask.paths.map toCamelCase)

def visitStr (value : List Char) : List (List Char) :=
  if value.isEmpty then [] else (value.splitOn ',').map toSnakeCase

def deserialize (value : List Char) : FieldMask := ⟨visitStr value⟩

end FieldMask

end GoogleCloudRust.Wkt
