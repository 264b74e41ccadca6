import AuctionLog.Journal.Filter
import AuctionLog.Recorder.Session
import AuctionLog.Service
import AuctionLog.Proofs.Sink.Offer
import AuctionLog.Proofs.Recorder.Attempt
import AuctionLog.Proofs.Recorder.Accounting
import AuctionLog.Proofs.Sink.Fifo
import AuctionLog.Proofs.Json.StringLiteral
import AuctionLog.Proofs.Double.Rounding
import AuctionLog.Proofs.Double.Shortest
import AuctionLog.Proofs.Json.NumberLiteral
import AuctionLog.Proofs.Json.Number
import AuctionLog.Proofs.Json.RoundTrip
import AuctionLog.Proofs.Json.Arranged
import AuctionLog.Proofs.Json.Fits
import AuctionLog.Proofs.Json.Table
import AuctionLog.Proofs.Record.Reference
import AuctionLog.Proofs.Decoder.Yields
import AuctionLog.Proofs.Record.Carried
import AuctionLog.Proofs.Record.Line
import AuctionLog.Proofs.Http.Site
import AuctionLog.Proofs.Json.Plain
import AuctionLog.Proofs.Sink.LineWriter
import AuctionLog.Proofs.Text.Lines
import AuctionLog.Proofs.Service.Printing
import AuctionLog.Proofs.Service.Serving
import AuctionLog.Proofs.Recorder.Recorded
import AuctionLog.Proofs.Event.Recognized
import AuctionLog.Proofs.Record.Names
import AuctionLog.Proofs.Recorder.Lossless
import AuctionLog.Proofs.Http.Discretion
import AuctionLog.Proofs.Json.Composed
import AuctionLog.Proofs.Text.Utf8Order
import AuctionLog.Proofs.Json.Outside
import AuctionLog.Proofs.Json.Unrepeated
import AuctionLog.Proofs.Record.Unrepeated
import AuctionLog.Proofs.Event.Arranged
import AuctionLog.Proofs.Record.OnePerName
import AuctionLog.Proofs.Recorder.WellFormed
import AuctionLog.Proofs.Decoder.Ignores
import AuctionLog.Proofs.Event.Undeclared
import AuctionLog.Proofs.Settings.Environment
import AuctionLog.Proofs.Service.Starting
import AuctionLog.Proofs.Http.Conservation
import AuctionLog.Proofs.Decoder.Tables
import AuctionLog.Proofs.Event.Reingested
import AuctionLog.Proofs.Json.Literals
import AuctionLog.Proofs.Json.Written
import AuctionLog.Proofs.Json.Reordered
import AuctionLog.Proofs.Http.MemberOrder
import AuctionLog.Proofs.Json.LiteralsRead
import AuctionLog.Proofs.Json.Grammar
import AuctionLog.Proofs.Text.Numeral
import AuctionLog.Proofs.Decoder.Given
import AuctionLog.Proofs.Summary.Rule
import AuctionLog.Proofs.Summary.Projection
import AuctionLog.Proofs.Summary.Listed
import AuctionLog.Proofs.Record.Lookup
import AuctionLog.Proofs.Event.Classified
import AuctionLog.Proofs.Summary.Resummarized
import AuctionLog.Proofs.Decoder.Makes
import AuctionLog.Proofs.Record.Retold
import AuctionLog.Proofs.Decoder.Aliases
import AuctionLog.Proofs.Decoder.Reads
import AuctionLog.Proofs.Event.SyncStatuses
import AuctionLog.Proofs.Json.Kept
import AuctionLog.Proofs.NamedValues.Expanded
import AuctionLog.Proofs.NamedValues.Routes
import AuctionLog.Proofs.Decoder.Framed
import AuctionLog.Proofs.Summary.Integers
import AuctionLog.Proofs.Text.LetterCase
import AuctionLog.Proofs.Event.Served
import AuctionLog.Proofs.Event.Methods
import AuctionLog.Proofs.Settings.Variables
import AuctionLog.Proofs.Journal.Pinned
