import UsagePolicy.Config
import UsagePolicy.Document.Reports
import UsagePolicy.Toml.Parse

/-! Configurations as values and as TOML text. -/
namespace UsagePolicy

namespace AnalyzerConfig

def toJson (c : AnalyzerConfig) : Json :=
  .obj [("root", .str c.root), ("exclude", .ofList .str c.exclude),
    ("max_generic_depth", .ofNat c.maxGenericDepth), ("parallelism", .ofOption .ofNat c.parallelism),
    ("analyze_generated", .bool c.analyzeGenerated)]

def ofValue? (v : Json) : Option AnalyzerConfig := do
  let r ← v.record? .toml ["root", "exclude", "max_generic_depth", "parallelism", "analyze_generated"]
  return {
    root := ← r.withDefault "root" "." Json.string?
    exclude := ← r.withDefault "exclude" [] (Json.list? Json.string?)
    maxGenericDepth := ← r.withDefault "max_generic_depth" 32 (Json.below? (Nat.pow 2 64))
    parallelism := ← r.optional "parallelism" (Json.below? (Nat.pow 2 64))
    analyzeGenerated := ← r.withDefault "analyze_generated" false Json.bool? }

end AnalyzerConfig

namespace CategoryConfig

def toJson (c : CategoryConfig) : Json :=
  .obj [("enabled", .ofOption .bool c.enabled), ("severity", .ofOption Severity.toJson c.severity)]

def ofValue? (v : Json) : Option CategoryConfig := do
  let r ← v.record? .toml ["enabled", "severity"]
  return {
    enabled := ← r.optional "enabled" Json.bool?
    severity := ← r.optional "severity" (Json.choice? .toml Severity.ofName?) }

end CategoryConfig

namespace Config

def toJson (c : Config) : Json :=
  .obj [("preset", .ofOption .str c.preset), ("analyzer", c.analyzer.toJson),
    ("categories", .obj (c.categories.map fun (id, category) => (id, category.toJson)))]

def categoriesOf? (v : Json) : Option (List (String × CategoryConfig)) := do
  (← v.fields?).mapM fun (id, v) => (CategoryConfig.ofValue? v).map (id, ·)

def ofValue? (v : Json) : Option Config := do
  let r ← v.record? .toml ["preset", "analyzer", "categories"]
  return {
    preset := ← r.optional "preset" Json.string?
    analyzer := ← r.withDefault "analyzer" {} AnalyzerConfig.ofValue?
    categories := ← r.withDefault "categories" [] categoriesOf? }

/-- The configuration in a TOML document; its rules are ignored. -/
def ofToml? (content : String) : Option Config := (Toml.parse? content).bind ofValue?

end Config

end UsagePolicy
