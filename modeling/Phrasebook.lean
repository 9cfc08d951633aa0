import Phrasebook.Document
import Phrasebook.Engine
import Phrasebook.Translator
import Phrasebook.Proofs.Lookups
import Phrasebook.Proofs.Filling
import Phrasebook.Proofs.Confinement
import Phrasebook.Proofs.Normalization
import Phrasebook.Proofs.Layers
import Phrasebook.Proofs.LocaleFallback
import Phrasebook.Proofs.Strictness
import Phrasebook.Proofs.Written
import Phrasebook.Proofs.FileNames
import Phrasebook.Proofs.Bundles
import Phrasebook.Proofs.Building
import Phrasebook.Proofs.Evaluating
import Phrasebook.Proofs.Reading
import Phrasebook.Proofs.Escapes
import Phrasebook.Proofs.Requests
import Phrasebook.Proofs.OwnKeys
import Phrasebook.Proofs.TreeShape
import Phrasebook.Proofs.Json.Documents
import Phrasebook.Proofs.KeyPaths
import Phrasebook.Proofs.Leftmost
import Phrasebook.Proofs.LookupOrder
import Phrasebook.Proofs.Chained
import Phrasebook.Proofs.Recursion
import Phrasebook.Proofs.PlainCopies
import Phrasebook.Proofs.Sameness
import Phrasebook.Proofs.Pipelines
import Phrasebook.Proofs.WrappingOrder
import Phrasebook.Proofs.Resolving
import Phrasebook.Proofs.GivenDefaults
import Phrasebook.Proofs.Blame
import Phrasebook.Proofs.NestedChains
import Phrasebook.Proofs.PureSources
import Phrasebook.Proofs.TwoPasses
import Phrasebook.Proofs.Views
