import Verdant.Domain.Reading

/-!
# The tiny site

The synthetic fixture: two scopes, one air handler, two boxes and one shared sensor, with their relationships and readings.
-/

namespace Verdant

/-- Spatial, service and sensing relationships. -/
inductive Relationship where
  | locatedIn (entity : InstalledId) (scope : TrustedScope)
  | servedBy (vav ahu : InstalledId)
  | observedBy (entity sensor : InstalledId)
  deriving DecidableEq

structure TinySite where
  scopes : List TrustedScope
  ahu : InstalledId
  vavs : InstalledId × InstalledId
  sharedSensor : InstalledId
  labels : List (InstalledId × String)
  relationships : List Relationship
  readings : List Reading

/-- Display label for an installed id. -/
def TinySite.labelOf (site : TinySite) (id : InstalledId) : Option String := site.labels.lookup id

namespace TinySite

def scopeA : TrustedScope := ⟨"scope-a", by decide⟩

def scopeB : TrustedScope := ⟨"scope-b", by decide⟩

def ahu1 : InstalledId := ⟨"ahu-1", by decide⟩

def vav101 : InstalledId := ⟨"vav-101", by decide⟩

def vav102 : InstalledId := ⟨"vav-102", by decide⟩

def sensorSat1 : InstalledId := ⟨"sensor-sat-1", by decide⟩

def baseTimes : TimeTriple := ⟨1700000000123, 1700000000456, 1700000000789, by decide, by decide⟩

end TinySite

open TinySite in
/-- The frozen tiny site. -/
def tinySite : TinySite where
  scopes := [scopeA, scopeB]
  ahu := ahu1
  vavs := (vav101, vav102)
  sharedSensor := sensorSat1
  labels := [(ahu1, "AHU"), (vav101, "VAV"), (vav102, "VAV"), (sensorSat1, "SAT")]
  relationships :=
    [.locatedIn ahu1 scopeA, .locatedIn vav101 scopeA, .locatedIn vav102 scopeB, .servedBy vav101 ahu1,
      .servedBy vav102 ahu1, .observedBy ahu1 sensorSat1, .observedBy vav101 sensorSat1, .observedBy vav102 sensorSat1]
  readings :=
    [⟨scopeA, ahu1, sensorSat1, .decimal ⟨"21.50", by decide +kernel⟩, .known .degC, baseTimes⟩,
      ⟨scopeA, vav101, sensorSat1, .integer 9007199254740993, .known .litresPerSecond, baseTimes⟩,
      ⟨scopeB, vav102, sensorSat1, .integer 0, .known .litresPerSecond, baseTimes⟩,
      ⟨scopeB, vav102, sensorSat1, .bool false, .known .percent, baseTimes⟩,
      ⟨scopeA, vav101, sensorSat1, .missing, .known .degC, baseTimes⟩,
      ⟨scopeA, ahu1, sensorSat1, .diagnostic .positiveInfinity, .known .pascal, baseTimes⟩,
      ⟨scopeB, vav102, sensorSat1, .diagnostic .notANumber, .known .pascal, baseTimes⟩,
      ⟨scopeB, vav101, sensorSat1, .mode (.unknown "turbo"), .unknown "furlongs-per-fortnight", baseTimes⟩]

end Verdant
