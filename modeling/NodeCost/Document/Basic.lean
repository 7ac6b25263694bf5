import NodeCost.Document.Read
import NodeCost.Json.Basic

namespace NodeCost

def Arch.ofJson (text : String) : Except DocumentError Arch := Document.read Document.takeArch text

def Arch.toJson (a : Arch) : Json := .string a.tag

def Feature.ofJson (text : String) : Except DocumentError Feature :=
  Document.read Document.takeFeature text

def Feature.toJson (f : Feature) : Json := .string f.tag

def FeatureSet.ofJson (text : String) : Except DocumentError FeatureSet :=
  Document.read Document.takeFeatureSet text

def FeatureSet.toJson (s : FeatureSet) : Json := .array (s.toList.map Feature.toJson)

def Target.ofJson (text : String) : Except DocumentError Target :=
  Document.read Document.takeTarget text

def Target.toJson (t : Target) : Json :=
  .object [("arch", t.arch.toJson), ("features", t.features.toJson)]

end NodeCost
