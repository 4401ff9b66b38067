import ViewHydration.Dom.Node
import ViewHydration.Dom.Document
import ViewHydration.Dom.Markup
import ViewHydration.Json.Binary64
import ViewHydration.Json.Value
import ViewHydration.Json.Writer
import ViewHydration.Json.Reader
import ViewHydration.Json.Strict
import ViewHydration.Json.Decode
import ViewHydration.Config
import ViewHydration.Handle
import ViewHydration.Template.Kind
import ViewHydration.Error
import ViewHydration.Text.DecimalDigit
import ViewHydration.Text.Blank
import ViewHydration.I18n.Message
import ViewHydration.I18n.SubTemplate
import ViewHydration.I18n.Plan
import ViewHydration.I18n.Localize
import ViewHydration.Hydration.Path
import ViewHydration.Hydration.Record
import ViewHydration.Template.Program
import ViewHydration.Template.TNode
import ViewHydration.Template.TView
import ViewHydration.View.LView
import ViewHydration.View.Registry
import ViewHydration.View.Frame
import ViewHydration.Hydration.Claims
import ViewHydration.Hydration.Pool
import ViewHydration.Hydration.Locate
import ViewHydration.Render.Context
import ViewHydration.Render.Position
import ViewHydration.Render.Node
import ViewHydration.Render.Materialize
import ViewHydration.Render.Element
import ViewHydration.Render.I18n
import ViewHydration.Render.Container
import ViewHydration.Render.Scope
import ViewHydration.Render.Run
import ViewHydration.Hydration.Serialize
import ViewHydration.Render.Mount
import ViewHydration.Session.Report
import ViewHydration.Session.Request
import ViewHydration.Session.Decode
import ViewHydration.Session.Basic
import ViewHydration.Session.Play
import ViewHydration.Session.Answer
import ViewHydration.Proofs.Monad
import ViewHydration.Proofs.Nesting
import ViewHydration.Proofs.DocumentEdits
import ViewHydration.Proofs.ViewEdits
import ViewHydration.Proofs.RenderSteps
import ViewHydration.Proofs.PassState
import ViewHydration.Proofs.CreationPass
import ViewHydration.Proofs.ParentLinks
import ViewHydration.Proofs.DocumentLinks
import ViewHydration.Proofs.DocumentForest
import ViewHydration.Proofs.DocumentWrites
import ViewHydration.Proofs.ChangeMask
import ViewHydration.Proofs.BindingSites
import ViewHydration.Proofs.BindingSteps
import ViewHydration.Proofs.UpdatePass
import ViewHydration.Proofs.BlockPlacement
import ViewHydration.Proofs.Footprint
import ViewHydration.Proofs.SlotRegions
import ViewHydration.Proofs.MessagePlan
import ViewHydration.Proofs.MessageGrammar
import ViewHydration.Proofs.PositionStack
import ViewHydration.Proofs.SubTemplateScan
import ViewHydration.Proofs.SubTemplates
import ViewHydration.Proofs.PathGrammar
import ViewHydration.Proofs.PathResolution
import ViewHydration.Proofs.BlockScan
import ViewHydration.Proofs.MessageBlocks
import ViewHydration.Proofs.FreeLists
import ViewHydration.Proofs.Threading
import ViewHydration.Proofs.IssuedInstrs
import ViewHydration.Proofs.PassRegions
import ViewHydration.Proofs.TemplateLinks
import ViewHydration.Proofs.LinkFrame
import ViewHydration.Proofs.PassMoves
import ViewHydration.Proofs.MadeViews
import ViewHydration.Proofs.SparingSteps
import ViewHydration.Proofs.NestedPasses
import ViewHydration.Proofs.PassThreading
import ViewHydration.Proofs.LocateAgreement
