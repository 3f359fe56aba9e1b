import Verdant.Domain.JsonLiteral
import Verdant.Semantics.Ancestry

/-!
# Pinned sources

The artifacts the recipe pins, the closed matrix of the terms mapped from them, and the facts of a report.
-/

namespace Verdant.Semantics

/-- The escapes of the ledger are those of the domain. -/
def json (raw : String) : String := Json.quote raw

/-! ### The recipe -/

def recipeId : String := "verdant-f02-s01-v1"

def evidenceText : String := "parser-only; mapped; not observed-qualified; no native materialization"

def brick : String := "Brick.ttl"

def s223 : String := "223p.ttl"

def qk31 : String := "qk-3.1.0.ttl"

def unit31 : String := "unit-3.1.0.ttl"

def qudt32 : String := "qudt-all-3.2.1.ttl"

structure Artifact where
  name : String
  bytes : Nat
  sha256 : String
  url : String
  provenance : String

def artifacts : List Artifact :=
  [{ name := brick
     bytes := 1749633
     sha256 := "b65720b7b9b64c646745c689777e6138c0d59ce0088df0aeb78fbd444d04d8e7"
     url := "https://github.com/BrickSchema/Brick/releases/download/v1.4.4/Brick.ttl"
     provenance := "Brick v1.4.4; tag 4b5be60d27f9b4d96fe477f45513fa71afebe684; release 216036536; " ++
       "asset 251163888; generated distribution; embedded REC 4.0" },
   { name := s223
     bytes := 536776
     sha256 := "47bdad8925032c84e750e46b3649d102f4e41190c8161df3c9efa3265009b0e0"
     url := "https://raw.githubusercontent.com/open223/open223.info/97656845cab16183e64e9611c94f40a6fad95226/" ++
       "223p.ttl"
     provenance := "open223 97656845cab16183e64e9611c94f40a6fad95226; " ++
       "blob fcc29f7bc88df4188a35992c1ef9104d1cbe4297; v1.0.0-2026; " ++
       "community snapshot, not official-publication qualification" },
   { name := "bacnet.ttl"
     bytes := 1317004
     sha256 := "b51a240c3ea883f06034cc9d90fff2d1b7187ed8e7526407af24f2370f7eb948"
     url := "https://raw.githubusercontent.com/BrickSchema/Brick/4b5be60d27f9b4d96fe477f45513fa71afebe684/" ++
       "support/bacnet.ttl"
     provenance := "Brick 4b5be60 support copy; ontology IRI is not a working download URL" },
   { name := qk31
     bytes := 1759877
     sha256 := "f774eaa7608b45c1ec443bde7e60c890e5d0a3bba7a1fa03ce658658be41a07b"
     url := "https://raw.githubusercontent.com/BrickSchema/Brick/4b5be60d27f9b4d96fe477f45513fa71afebe684/" ++
       "support/VOCAB_QUDT-QUANTITY-KINDS-ALL.ttl"
     provenance := "Brick 4b5be60 substituted QUDT 3.1.0 bytes; never raw version templates" },
   { name := unit31
     bytes := 2901259
     sha256 := "d940c1f9cf1f49139207a20019849e1e79ac3e0156a3c0ea1d715890cf1e91e9"
     url := "https://raw.githubusercontent.com/BrickSchema/Brick/4b5be60d27f9b4d96fe477f45513fa71afebe684/" ++
       "support/VOCAB_QUDT-UNITS-ALL.ttl"
     provenance := "Brick 4b5be60 substituted QUDT 3.1.0 bytes; never substitute 3.2.1" },
   { name := "ref-schema.ttl"
     bytes := 11876
     sha256 := "43da7c7eefa6eaf5eca3d37b036856c34f5d1da2a172a578a7868571c49a11e7"
     url := "https://raw.githubusercontent.com/BrickSchema/Brick/4b5be60d27f9b4d96fe477f45513fa71afebe684/" ++
       "support/ref-schema.ttl"
     provenance := "Brick 4b5be60 support/ref-schema.ttl" },
   { name := "recimports-brick.ttl"
     bytes := 4069
     sha256 := "58cebae4623e2718c302f207f25d1970b0e28f9ac191502fe48598d00e422983"
     url := "https://raw.githubusercontent.com/BrickSchema/Brick/4b5be60d27f9b4d96fe477f45513fa71afebe684/" ++
       "support/recimports.ttl"
     provenance := "Brick 4b5be60; " ++
       "identical to REC 352187a7dea0a73a40893ead8ba5cda6f7e181e3 Source/SHACL/RealEstateCore/recimports.ttl; " ++
       "embedded REC, not floating main" },
   { name := "dash.ttl"
     bytes := 94738
     sha256 := "01a32d725a0093910d17596102dc38a0ead231fa9d8ebed0bb433abfb705ebf4"
     url := "https://datashapes.org/dash.ttl"
     provenance := "singleton; Last-Modified 2022-05-27; ETag 17212-5dff5b6515f9a; hash authoritative; " ++
       "shapes data only" },
   { name := "recpatches.ttl"
     bytes := 67039
     sha256 := "1cccf9440410e344439ca891bd4f89a6491a65df0486c7d56e736925caa578a0"
     url := "https://raw.githubusercontent.com/BrickSchema/Brick/4b5be60d27f9b4d96fe477f45513fa71afebe684/" ++
       "bricksrc/recpatches.ttl"
     provenance := "ratified Brick-side 1.4 patches; REC-side 1.3 variant refused; patches are data, not executed" },
   { name := qudt32
     bytes := 6725499
     sha256 := "2540751c232cc8a012211b12752e334385af320fd96be389f2d3b55af09af8d6"
     url := "https://qudt.org/3.2.1/shacl/qudt-all"
     provenance := "QUDT version-path bundle 3.2.1; SHA authoritative; no commit pin available; " ++
       "never substitute for Brick 3.1.0" },
   { name := "shacl.ttl"
     bytes := 52899
     sha256 := "0e5d8aea0eab98a072d4a02faaee1ee914ec99eab2ca473429726faed4a13f69"
     url := "https://www.w3.org/ns/shacl.ttl"
     provenance := "W3C singleton; Last-Modified 2025-09-03; hash authoritative; shapes as data, never executed" }]

def artifact (name : String) : Except ParseError Artifact :=
  match artifacts.find? (·.name = name) with
  | some pin => .ok pin
  | none => .error (.remote name)

/-! ### The matrix -/

def brickNamespace : String := "https://brickschema.org/schema/Brick#"

def s223Namespace : String := "http://data.ashrae.org/standard223#"

def recNamespace : String := "https://w3id.org/rec#"

structure Row where
  artifact : String
  iri : String
  kind : String
  direction : String
  deriving DecidableEq, Repr

/-- Artifact, namespace, local name and direction of each mapped term; a class has no direction. -/
def specifications : List (String × String × String × String) :=
  ["AHU", "VAV", "Supply_Air_Temperature_Sensor", "Air_Temperature_Sensor", "Temperature_Sensor", "Sensor", "Equipment",
    "HVAC_Equipment"].map (fun name => (brick, brickNamespace, name, "")) ++
  ["Equipment", "Sensor", "ObservableProperty", "QuantifiableObservableProperty"].map
    (fun name => (s223, s223Namespace, name, "")) ++
  ["Room", "Space"].map (fun name => (brick, recNamespace, name, "")) ++
  [(brick, brickNamespace, "hasPoint", "subject telemetry-owner -> object point"),
   (brick, brickNamespace, "isPointOf", "subject point -> object telemetry-owner"),
   (brick, brickNamespace, "feeds", "subject upstream -> object downstream"),
   (brick, brickNamespace, "hasLocation", "subject entity -> object location; not service"),
   (brick, recNamespace, "locatedIn", "subject entity -> object location; not service"),
   (brick, recNamespace, "hasPoint", "subject telemetry-owner -> object point"),
   (s223, s223Namespace, "observes", "subject Sensor -> object ObservableProperty"),
   (s223, s223Namespace, "hasProperty", "subject Concept -> object Property"),
   (s223, s223Namespace, "connectsTo", "subject Connection -> object Connectable; flow subject to object")]

/-- Explicit mappings; a superclass does not admit unknown subclasses or aliases. -/
def supported (source iri : String) : Except ParseError Row :=
  match specifications.find? fun (artifact, namesp, local', _) => source = artifact ∧ iri = namesp ++ local' with
  | some (artifact, _, _, direction) =>
    .ok ⟨artifact, iri, if direction = "" then "class" else "relation", direction⟩
  | none => .error (.unsupported (source ++ ": " ++ iri))

/-! ### The ledger -/

inductive Kind where
  | original
  | derived
  | refusal
  deriving DecidableEq, Repr

def Kind.name : Kind → String
  | .original => "original"
  | .derived => "derived"
  | .refusal => "refusal"

structure Fact where
  artifact : String
  sha256 : String
  subject : String
  predicate : String
  object : Object
  kind : Kind
  rule : String
  reason : String
  provenance : String

def Object.lexical : Object → String
  | .iri value => value
  | .literal lexical => lexical

/-- `authored` means explicit in the artifact. -/
def Fact.toJson (fact : Fact) : String :=
  let objectKind := match fact.object with
    | .iri _ => "iri"
    | .literal _ => "literal"
  "\x7b\"artifact\":" ++ json fact.artifact ++ ",\"sha256\":" ++ json fact.sha256 ++ ",\"subject\":" ++ json fact.subject ++
    ",\"predicate\":" ++ json fact.predicate ++ ",\"object_kind\":" ++ json objectKind ++ ",\"object\":" ++
    json fact.object.lexical ++ ",\"kind\":" ++ json fact.kind.name ++ ",\"authored\":" ++
    (if fact.kind = .original then "true" else "false") ++ ",\"rule\":" ++ json fact.rule ++
    ",\"rule_version\":1,\"recipe\":" ++ json recipeId ++ ",\"reason\":" ++ json fact.reason ++ ",\"provenance\":" ++
    json fact.provenance ++ ",\"evidence\":" ++ json evidenceText ++ "\x7d"

structure Report where
  rows : List Row
  ledger : List Fact

end Verdant.Semantics
