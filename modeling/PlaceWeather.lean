import PlaceWeather.Main
import PlaceWeather.Session.Basic
import PlaceWeather.Station.Flight
import PlaceWeather.Proofs.Calendar.Sum
import PlaceWeather.Proofs.Schedule.Ladder
import PlaceWeather.Proofs.Schedule.Walk
import PlaceWeather.Proofs.Station.Ending
import PlaceWeather.Proofs.Station.RefreshPath
import PlaceWeather.Proofs.Station.Sweep
import PlaceWeather.Proofs.Station.Freshness
import PlaceWeather.Proofs.Place.Keyed
import PlaceWeather.Proofs.Station.Showing
import PlaceWeather.Proofs.Station.Frame
import PlaceWeather.Proofs.Forecast.LastPerStart
import PlaceWeather.Proofs.Session.Founded
import PlaceWeather.Proofs.Session.Provenance
import PlaceWeather.Proofs.Station.FailingCall
import PlaceWeather.Proofs.Station.Interruption
import PlaceWeather.Proofs.Place.Reconciled
import PlaceWeather.Proofs.Station.Addition
import PlaceWeather.Proofs.Station.Reachability
import PlaceWeather.Proofs.Markup.Writing
import PlaceWeather.Proofs.Markup.Tokens
import PlaceWeather.Proofs.Markup.Tags
import PlaceWeather.Proofs.Markup.Items
import PlaceWeather.Proofs.Markup.Children
import PlaceWeather.Proofs.Feed.Written
import PlaceWeather.Proofs.Feed.Telling
import PlaceWeather.Proofs.Text.Pieces
import PlaceWeather.Proofs.Store.LinkIndex
import PlaceWeather.Proofs.Address.Page
import PlaceWeather.Proofs.Address.Accepted
import PlaceWeather.Proofs.Store.FindByLink
import PlaceWeather.Proofs.Place.Agreement
import PlaceWeather.Proofs.Session.Mentions
import PlaceWeather.Proofs.Station.OwnPage
import PlaceWeather.Proofs.Station.PlaceRecords
import PlaceWeather.Proofs.Session.Status
import PlaceWeather.Proofs.Session.StoredEntries
import PlaceWeather.Proofs.Station.SingleFlight
import PlaceWeather.Proofs.Station.AnyOrder
import PlaceWeather.Proofs.Feed.OffCalendar
import PlaceWeather.Proofs.Station.AnyDocument
import PlaceWeather.Proofs.Schedule.Climb
import PlaceWeather.Proofs.Forecast.Selection
import PlaceWeather.Proofs.Station.Convergence
import PlaceWeather.Proofs.Decimal.NotANumber
import PlaceWeather.Proofs.Feed.Coordinates
import PlaceWeather.Proofs.Session.PlaceInvariant
import PlaceWeather.Proofs.Session.SameDocument
import PlaceWeather.Proofs.Text.Percent
import PlaceWeather.Proofs.Address.Encoded
import PlaceWeather.Proofs.Address.PageFeed
import PlaceWeather.Proofs.Decimal.Digits
import PlaceWeather.Proofs.Forecast.Labels
import PlaceWeather.Proofs.Report.Listing
import PlaceWeather.Proofs.Report.RelativeDays
import PlaceWeather.Proofs.Calendar.Civil
import PlaceWeather.Proofs.Calendar.RoundTrip
import PlaceWeather.Proofs.Calendar.Offset
import PlaceWeather.Proofs.Decimal.Whole
import PlaceWeather.Proofs.Feed.Updates
import PlaceWeather.Proofs.Files
import PlaceWeather.Proofs.Sky.IconPath
