import FreshCity.Imperative.Footprint
import FreshCity.Imperative.Run
import FreshCity.Imperative.Map
import FreshCity.Imperative.Document
import FreshCity.Sha256
import FreshCity.Algorithms
import FreshCity.Sessions
import FreshCity.TeamMembership
import FreshCity.TeamNumbers
import FreshCity.RaceMembership
import FreshCity.Kills
import FreshCity.ZoneColours
import FreshCity.EndingWars
import FreshCity.Money
import FreshCity.Restoring
import FreshCity.RecordRuns
import FreshCity.PropertyTrade
import FreshCity.Stored
import FreshCity.Loading
import FreshCity.Tenures
import FreshCity.Imperative.Cache
import FreshCity.Coherence
import FreshCity.SecureHash
import FreshCity.Digest
import FreshCity.StandardHash
import FreshCity.RacePhases
import FreshCity.Totality
import FreshCity.RaceCheckpoints
import FreshCity.Registration
import FreshCity.Markers
import FreshCity.PropertyDialogs
import FreshCity.WarOutcomes
import FreshCity.WarTimers
import FreshCity.ZoneRegistry
import FreshCity.RaceCounting
import FreshCity.RaceRanks
import FreshCity.WarStarts
import FreshCity.TimerHandles
import FreshCity.FailedLogins
import FreshCity.SplitDraws
import FreshCity.IntOverflow
import FreshCity.KillRewards
import FreshCity.KillUpdates
import FreshCity.SkillCooldown
import FreshCity.Existence
import FreshCity.Reserved
import FreshCity.Exceptions
import FreshCity.TeamIds
import FreshCity.KillStreaks
import FreshCity.ZoneWizard
import FreshCity.RaceDocuments
import FreshCity.TeamSwitch
import FreshCity.PickupRuns
import FreshCity.Importing
import FreshCity.DanglingTimers
import FreshCity.SignedWrites
import FreshCity.Imperative.Pool
import FreshCity.ItemOwners
import FreshCity.Journal
import FreshCity.KeptDocuments
import FreshCity.Teleports
import FreshCity.References
import FreshCity.ReferenceRuns
import FreshCity.Imperative.Rows
import FreshCity.ListDialogs
