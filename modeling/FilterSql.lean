import FilterSql.Main
import FilterSql.Users
import FilterSql.Proofs.Sql.Token
import FilterSql.Proofs.Sql.Quoting
import FilterSql.Proofs.Sql.Predicate
import FilterSql.Proofs.Sql.Pieces
import FilterSql.Proofs.Sql.Rendering
import FilterSql.Proofs.Sql.Placeholders
import FilterSql.Proofs.Sql.Template
import FilterSql.Proofs.Sql.Readable
import FilterSql.Proofs.Sql.Conjoining
import FilterSql.Proofs.Compile
import FilterSql.Proofs.Direct
import FilterSql.Proofs.Leaves
import FilterSql.Proofs.Restriction
import FilterSql.Proofs.Alike
import FilterSql.Proofs.Canonical
import FilterSql.Proofs.Sql.Building
import FilterSql.Proofs.Sql.Meaning
import FilterSql.Proofs.Filter.Meaning
import FilterSql.Proofs.Users
import FilterSql.Proofs.Filter.Language
import FilterSql.Proofs.Filter.Match
import FilterSql.Proofs.Filter.Words
import FilterSql.Proofs.Filter.Scan
import FilterSql.Proofs.Filter.Levels
import FilterSql.Proofs.Filter.Parse
import FilterSql.Proofs.Filter.TextForm
import FilterSql.Proofs.Filter.Composition
import FilterSql.Proofs.Image
import FilterSql.Proofs.Query
import FilterSql.Proofs.Decimal.Literals
import FilterSql.Proofs.Decimal.Rounding
import FilterSql.Proofs.Decimal.Shortest
import FilterSql.Proofs.Json.Scalar
import FilterSql.Proofs.Json.Float
import FilterSql.Proofs.Parameters
import FilterSql.Proofs.Filter.Attempts
import FilterSql.Proofs.Filter.Diagnostics
import FilterSql.Proofs.Json.FilterForm
import FilterSql.Proofs.Reports
import FilterSql.Proofs.Shown
import FilterSql.Proofs.Counting
