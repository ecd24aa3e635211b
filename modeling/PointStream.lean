import PointStream.Crs.Local
import PointStream.Crs.Mercator
import PointStream.Session
import PointStream.Proofs.Schema.Layout
import PointStream.Proofs.Buffer.Calls
import PointStream.Proofs.Decimal.Range
import PointStream.Proofs.Generator.Columns
import PointStream.Proofs.Cursor.Source
import PointStream.Proofs.Crs.Elementwise
import PointStream.Proofs.Cursor.Position
import PointStream.Proofs.Cursor.Walk
import PointStream.Proofs.Pipeline.Delivery
import PointStream.Proofs.Stage.Obstacles
import PointStream.Proofs.World.Course
import PointStream.Proofs.World.Refusal
import PointStream.Proofs.World.Holding
import PointStream.Proofs.Decimal.Nearest
import PointStream.Proofs.Decimal.Shortest
import PointStream.Proofs.Decimal.Spelling
import PointStream.Proofs.Json.Word
import PointStream.Proofs.Json.Text
import PointStream.Proofs.Json.Lexer
import PointStream.Proofs.Json.Writing
import PointStream.Proofs.Json.Reading
import PointStream.Proofs.Stage.Options
import PointStream.Proofs.Pipeline.Saving
import PointStream.Proofs.Pipeline.Counting
import PointStream.Proofs.Pipeline.Problems
import PointStream.Proofs.World.Apart
import PointStream.Proofs.World.Extent
import PointStream.Proofs.World.Updating
import PointStream.Proofs.Bounds.Reading
import PointStream.Proofs.Bounds.Groups
import PointStream.Proofs.Json.Saving
import PointStream.Proofs.Stage.Configuration
import PointStream.Proofs.Pipeline.Configuration
import PointStream.Proofs.Cursor.Failing
import PointStream.Proofs.Cursor.Time
