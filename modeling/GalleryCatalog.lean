import GalleryCatalog.Main
import GalleryCatalog.Migration.Dialect
import GalleryCatalog.Migration.Options
import GalleryCatalog.Migration.Schema
import GalleryCatalog.Proofs.AbortedUnit
import GalleryCatalog.Proofs.Acceptance
import GalleryCatalog.Proofs.AliasRules
import GalleryCatalog.Proofs.Atomicity
import GalleryCatalog.Proofs.CommandRuns
import GalleryCatalog.Proofs.ConfigurationFaults
import GalleryCatalog.Proofs.Confinement
import GalleryCatalog.Proofs.EscapedOptions
import GalleryCatalog.Proofs.FirstOccurrences
import GalleryCatalog.Proofs.Idempotence
import GalleryCatalog.Proofs.ImageIntegers
import GalleryCatalog.Proofs.Isolation
import GalleryCatalog.Proofs.KeyReports
import GalleryCatalog.Proofs.MergedSources
import GalleryCatalog.Proofs.MinimalDiff
import GalleryCatalog.Proofs.NamelessSources
import GalleryCatalog.Proofs.PageHistory
import GalleryCatalog.Proofs.PageNumbers
import GalleryCatalog.Proofs.PageRemoval
import GalleryCatalog.Proofs.Reordering
import GalleryCatalog.Proofs.SeparateServices
import GalleryCatalog.Proofs.StoredMoments
import GalleryCatalog.Proofs.TagLookUp
import GalleryCatalog.Proofs.TagSpelling
import GalleryCatalog.Proofs.UnknownArchives
import GalleryCatalog.Proofs.UnmodeledMembers
import GalleryCatalog.Proofs.UnresolvedTags
import GalleryCatalog.Proofs.Upserts
import GalleryCatalog.Session.Serve
