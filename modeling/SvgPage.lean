import SvgPage.Css.Amount
import SvgPage.Css.BasicShape
import SvgPage.Css.Box
import SvgPage.Css.Color
import SvgPage.Css.ColorFunction
import SvgPage.Css.ColorName
import SvgPage.Css.Component
import SvgPage.Css.Declaration
import SvgPage.Css.Expression
import SvgPage.Css.Filter
import SvgPage.Css.Font
import SvgPage.Css.Formula
import SvgPage.Css.Kept
import SvgPage.Css.LayerImage
import SvgPage.Css.Mask
import SvgPage.Css.Mixture
import SvgPage.Css.Picture
import SvgPage.Css.PointGradient
import SvgPage.Css.Position
import SvgPage.Css.Quantity
import SvgPage.Css.Reader
import SvgPage.Css.Rule
import SvgPage.Css.Selector
import SvgPage.Css.Space
import SvgPage.Css.Text
import SvgPage.Css.Token
import SvgPage.Css.TransformFunction
import SvgPage.Css.Value
import SvgPage.Embedding
import SvgPage.Geometry.Arc
import SvgPage.Geometry.Matrix
import SvgPage.Geometry.Path
import SvgPage.Geometry.PathData
import SvgPage.Geometry.Shape
import SvgPage.Geometry.TransformList
import SvgPage.Geometry.Viewport
import SvgPage.Image.Gallery
import SvgPage.Image.Handle
import SvgPage.Image.Raster
import SvgPage.Number.Binary
import SvgPage.Number.Decimal
import SvgPage.Number.Shortest
import SvgPage.Number.Single
import SvgPage.Page.Compile
import SvgPage.Page.Conversion
import SvgPage.Page.Operator
import SvgPage.Page.Resources
import SvgPage.Page.Stream
import SvgPage.Page.Value
import SvgPage.Paint.Color
import SvgPage.Paint.Definitions
import SvgPage.Paint.Gradient
import SvgPage.Paint.Keyword
import SvgPage.Paint.Length
import SvgPage.Paint.Paint
import SvgPage.Payload.Base64
import SvgPage.Payload.Bytes
import SvgPage.Payload.DataUri
import SvgPage.Payload.Digest
import SvgPage.Problem
import SvgPage.Scalar
import SvgPage.Scene.Context
import SvgPage.Scene.DefinitionElement
import SvgPage.Scene.Document
import SvgPage.Scene.Element
import SvgPage.Scene.Node
import SvgPage.Scene.Outline
import SvgPage.Scene.Style
import SvgPage.Scene.TextSpace
import SvgPage.Scene.Walk
import SvgPage.Shelf
import SvgPage.Style.Cascade
import SvgPage.Style.Declarations
import SvgPage.Style.StyleBlock
import SvgPage.Text.Chars
import SvgPage.Text.Printable
import SvgPage.Text.Quoted
import SvgPage.Type.CharacterMap
import SvgPage.Type.Font
import SvgPage.Type.FontTable
import SvgPage.Type.TrueType
import SvgPage.Xml.Node
import SvgPage.Xml.Token
import SvgPage.Proofs.Page.Grammar
import SvgPage.Proofs.Page.Tables
import SvgPage.Proofs.Page.WellFormed
import SvgPage.Proofs.Page.Names
import SvgPage.Proofs.Page.Machine
import SvgPage.Proofs.Page.Paintings
import SvgPage.Proofs.Page.Likeness
import SvgPage.Proofs.Page.Simulation
import SvgPage.Proofs.Page.Correctness
import SvgPage.Proofs.Page.TextRuns
import SvgPage.Proofs.Shelf
import SvgPage.Proofs.Page.Requests
import SvgPage.Proofs.Page.Uses
import SvgPage.Proofs.Page.Closure
import SvgPage.Proofs.Page.Renaming
import SvgPage.Proofs.Paint.Inheritance
import SvgPage.Proofs.Scene.Relaxation
import SvgPage.Proofs.Scene.Rounds
import SvgPage.Proofs.Scene.Policy
import SvgPage.Proofs.Scene.Gathering
import SvgPage.Proofs.Scene.Insertion
import SvgPage.Proofs.Scene.Position
import SvgPage.Proofs.Page.Numbers
import SvgPage.Proofs.Scene.Figures
import SvgPage.Proofs.Scene.Descent
import SvgPage.Proofs.Scene.References
import SvgPage.Proofs.Scene.Clashes
import SvgPage.Proofs.Scene.Registration
import SvgPage.Proofs.Scene.Resolution
import SvgPage.Proofs.Scene.Recognition
import SvgPage.Proofs.Paint.Nesting
import SvgPage.Proofs.Style.Precedence
import SvgPage.Proofs.Number.Order
import SvgPage.Proofs.Paint.Validity
import SvgPage.Proofs.Scene.Validity
import SvgPage.Proofs.Geometry.Strokes
import SvgPage.Proofs.Number.Numeral
import SvgPage.Proofs.Geometry.PathGrammar
import SvgPage.Proofs.Geometry.PathReading
import SvgPage.Proofs.Paint.DashOffset
import SvgPage.Proofs.Paint.LinkSearch
import SvgPage.Proofs.Number.Exact
import SvgPage.Proofs.Page.GradientColors
import SvgPage.Proofs.Number.Shortest
import SvgPage.Proofs.Page.StreamReading
import SvgPage.Proofs.Geometry.Seams
import SvgPage.Proofs.Geometry.Progress
import SvgPage.Proofs.Geometry.Splicing
import SvgPage.Proofs.Geometry.Tracking
import SvgPage.Proofs.Scene.Outlines
import SvgPage.Proofs.Number.Patterns
import SvgPage.Proofs.Number.Narrowing
import SvgPage.Proofs.Page.ShadingFunctions
import SvgPage.Proofs.Geometry.Affine
import SvgPage.Proofs.Geometry.TransformGrammar
import SvgPage.Proofs.Geometry.Boxes
import SvgPage.Proofs.Scene.Enclosure
import SvgPage.Proofs.Paint.BoxUnits
import SvgPage.Proofs.Geometry.ArcCentre
import SvgPage.Proofs.Geometry.Placement
import SvgPage.Proofs.Geometry.Corners
import SvgPage.Proofs.Text.Collapse
import SvgPage.Proofs.Scene.Spacing
import SvgPage.Proofs.Page.Typesetting
import SvgPage.Proofs.Type.FontLog
import SvgPage.Proofs.Type.FamilyNames
import SvgPage.Proofs.Scene.TypeInheritance
import SvgPage.Proofs.Image.History
import SvgPage.Proofs.Text.Ends
import SvgPage.Proofs.Style.Printing
import SvgPage.Proofs.Style.Rules
import SvgPage.Proofs.Style.ClassSelectors
import SvgPage.Proofs.Payload.DataUri
import SvgPage.Proofs.Scene.EmbedCalls
import SvgPage.Proofs.Geometry.PathNumbers
import SvgPage.Proofs.Scene.ForeignElements
import SvgPage.Proofs.Scene.BlankShapes
import SvgPage.Proofs.Page.CurrentPath
