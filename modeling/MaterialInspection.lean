import MaterialInspection.Calendar
import MaterialInspection.Chance
import MaterialInspection.Criterion
import MaterialInspection.Criterion.Reading
import MaterialInspection.Desk
import MaterialInspection.Exchange
import MaterialInspection.Item
import MaterialInspection.Json.Record
import MaterialInspection.Json.Tree
import MaterialInspection.Json.Value
import MaterialInspection.Judging
import MaterialInspection.Material
import MaterialInspection.Number.Binary64
import MaterialInspection.Number.Extended
import MaterialInspection.Number.Fixed
import MaterialInspection.Number.Numeral
import MaterialInspection.Number.Power
import MaterialInspection.Number.Rounding
import MaterialInspection.Number.Shortest
import MaterialInspection.Number.Width
import MaterialInspection.Proofs.Calendar
import MaterialInspection.Proofs.Chance
import MaterialInspection.Proofs.Chance.Words
import MaterialInspection.Proofs.Criterion
import MaterialInspection.Proofs.Criterion.Bounds
import MaterialInspection.Proofs.Criterion.Decimals
import MaterialInspection.Proofs.Criterion.Ends
import MaterialInspection.Proofs.Criterion.Literals
import MaterialInspection.Proofs.Criterion.Ranges
import MaterialInspection.Proofs.Desk.Batch
import MaterialInspection.Proofs.Desk.Floor
import MaterialInspection.Proofs.Desk.Formats
import MaterialInspection.Proofs.Desk.Import
import MaterialInspection.Proofs.Desk.Lines
import MaterialInspection.Proofs.Desk.Outcomes
import MaterialInspection.Proofs.Desk.Preview
import MaterialInspection.Proofs.Json.Doubles
import MaterialInspection.Proofs.Json.Numbers
import MaterialInspection.Proofs.Json.Texts
import MaterialInspection.Proofs.Json.Written
import MaterialInspection.Proofs.Judging.ShortHold
import MaterialInspection.Proofs.Number.Digits
import MaterialInspection.Proofs.Number.ExactDecimal
import MaterialInspection.Proofs.Number.Fixed
import MaterialInspection.Proofs.Number.LeadingText
import MaterialInspection.Proofs.Number.Nearest
import MaterialInspection.Proofs.Number.Place
import MaterialInspection.Proofs.Number.Scripts
import MaterialInspection.Proofs.Number.Shortest
import MaterialInspection.Proofs.Number.WholeDecimal
import MaterialInspection.Proofs.Number.WholePart
import MaterialInspection.Proofs.Number.WholeText
import MaterialInspection.Proofs.Report.Complete
import MaterialInspection.Proofs.Report.Conflict
import MaterialInspection.Proofs.Report.Issued
import MaterialInspection.Proofs.Report.Next
import MaterialInspection.Proofs.Report.Numbering
import MaterialInspection.Proofs.Report.ReadBack
import MaterialInspection.Proofs.Report.Sampled
import MaterialInspection.Proofs.Report.Search
import MaterialInspection.Proofs.Report.Strictness
import MaterialInspection.Proofs.Sample.Accepted
import MaterialInspection.Proofs.Sample.Ball
import MaterialInspection.Proofs.Sample.Checked
import MaterialInspection.Proofs.Sample.DrawnRange
import MaterialInspection.Proofs.Sample.Grid
import MaterialInspection.Proofs.Sample.Moderate
import MaterialInspection.Proofs.Sample.Offset
import MaterialInspection.Proofs.Sample.OwnSamples
import MaterialInspection.Proofs.Sample.ReadRule
import MaterialInspection.Proofs.Sample.Tack
import MaterialInspection.Proofs.Sample.Uniform
import MaterialInspection.Proofs.Sample.Words
import MaterialInspection.Proofs.Sample.WrittenRule
import MaterialInspection.Proofs.SamplingPlan
import MaterialInspection.Proofs.Settings.ByKey
import MaterialInspection.Proofs.Settings.TierTexts
import MaterialInspection.Proofs.Sheet.OrderCell
import MaterialInspection.Proofs.Sheet.Quoted
import MaterialInspection.Proofs.Sheet.Records
import MaterialInspection.Proofs.StableSort
import MaterialInspection.Proofs.Store.Counted
import MaterialInspection.Proofs.Store.Kept
import MaterialInspection.Proofs.Store.Lineage
import MaterialInspection.Proofs.Store.OneRow
import MaterialInspection.Proofs.Store.Renewal
import MaterialInspection.Proofs.Store.Selection
import MaterialInspection.Proofs.Store.Transaction
import MaterialInspection.Report
import MaterialInspection.Report.Numbering
import MaterialInspection.Sample.Rule
import MaterialInspection.Sample.Spread
import MaterialInspection.Sample.Values
import MaterialInspection.SamplingPlan
import MaterialInspection.Settings
import MaterialInspection.Settings.Stored
import MaterialInspection.Sheet
import MaterialInspection.Sheet.File
import MaterialInspection.Sheet.ItemRow
import MaterialInspection.Sheet.Separated
import MaterialInspection.Sheet.Workbook
import MaterialInspection.Store
import MaterialInspection.Store.Archive
import MaterialInspection.Store.Catalog
import MaterialInspection.Store.Cell
import MaterialInspection.Store.Edit
import MaterialInspection.Store.Error
import MaterialInspection.Store.Numbered
import MaterialInspection.Store.Pattern
import MaterialInspection.Text.Blank
import MaterialInspection.Text.Digit
import MaterialInspection.Text.Letter
import MaterialInspection.Text.Lowercase
import MaterialInspection.Text.Search
import MaterialInspection.Verdict
